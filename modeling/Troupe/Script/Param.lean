import Troupe.Decimal.Numeral
import Troupe.Decimal.Shortest

/-! # Block parameters

A number field of the editor hands back whatever was typed into it, so a parameter is a
number or a text, and every reader says what it takes from either.

* `Param` — one value, read by `asNumber?` and `asText`.
* `Params` — the named values of a block in the order of their names, with `set`, `merge`
  and the readers `amount`, `count`, `seconds` and `text`.
-/

namespace Troupe.Script

open Troupe.Number (saturate widen larger)
open Troupe.Decimal (leadingNumber? shortestText)

/-! ## One parameter -/

inductive Param where
  | number (value : Float)
  | text (value : String)
deriving Repr, Inhabited

namespace Param

def ofInt (n : Int) : Param :=
  .number (Float.ofInt n)

def ofSingle (x : Float32) : Param :=
  .number (widen x)

/-- The finite number that a parameter stands for: a text stands for the numeral at its
    start. -/
def asNumber? : Param → Option Float
  | .number value => if value.isFinite then some value else none
  | .text value => leadingNumber? value

/-- The text of a parameter, a number being written in its fewest digits. -/
def asText : Param → String
  | .number value => shortestText value
  | .text value => value

end Param

/-! ## Named parameters -/

/-- Whether entries are in the order of their names, each name once. -/
def IsOrdered (entries : List (String × Param)) : Prop :=
  entries.Pairwise fun first second => first.1 < second.1

/-- Puts one entry at its place among entries in the order of their names. -/
def insertEntry (name : String) (value : Param) : List (String × Param) → List (String × Param)
  | [] => [(name, value)]
  | entry :: rest =>
    if name < entry.1 then (name, value) :: entry :: rest
    else if name = entry.1 then (name, value) :: rest
    else entry :: insertEntry name value rest

section

variable {name : String} {value : Param} {entries : List (String × Param)}

theorem mem_insertEntry {entry : String × Param} (member : entry ∈ insertEntry name value entries) :
    entry = (name, value) ∨ entry ∈ entries := by
  induction entries with
  | nil => simpa [insertEntry] using member
  | cons first rest ih =>
    rw [insertEntry] at member
    split at member
    case isTrue => simpa using member
    case isFalse =>
      split at member
      case isTrue =>
        rcases List.mem_cons.mp member with own | others
        · exact .inl own
        · exact .inr (List.mem_cons_of_mem _ others)
      case isFalse =>
        rcases List.mem_cons.mp member with rfl | others
        · exact .inr List.mem_cons_self
        · exact (ih others).imp_right (List.mem_cons_of_mem _)

theorem isOrdered_insertEntry (ordered : IsOrdered entries) :
    IsOrdered (insertEntry name value entries) := by
  unfold IsOrdered at ordered ⊢
  induction entries with
  | nil => simp [insertEntry]
  | cons entry rest ih =>
    obtain ⟨least, others⟩ := List.pairwise_cons.mp ordered
    rw [insertEntry]
    split
    case isTrue before =>
      refine List.pairwise_cons.mpr ⟨fun other member => ?_, ordered⟩
      rcases List.mem_cons.mp member with rfl | later
      · exact before
      · exact String.lt_trans before (least other later)
    case isFalse notBefore =>
      split
      case isTrue same => exact List.pairwise_cons.mpr ⟨same ▸ least, others⟩
      case isFalse differs =>
        refine List.pairwise_cons.mpr ⟨fun other member => ?_, ih others⟩
        rcases mem_insertEntry member with rfl | later
        · exact Std.lt_of_le_of_ne notBefore (Ne.symm differs)
        · exact least other later

end

/-- The named parameters of one block, in the order of their names. -/
structure Params where
  entries : List (String × Param)
  ordered : IsOrdered entries
deriving Repr

namespace Params

def empty : Params := ⟨[], .nil⟩

instance : Inhabited Params := ⟨empty⟩

def set (params : Params) (name : String) (value : Param) : Params :=
  ⟨insertEntry name value params.entries, isOrdered_insertEntry params.ordered⟩

def get? (params : Params) (name : String) : Option Param :=
  (params.entries.find? (·.1 = name)).map (·.2)

/-- The parameters with every entry of `partials` put over them. -/
def merge (params partials : Params) : Params :=
  partials.entries.foldl (fun merged entry => merged.set entry.1 entry.2) params

def number? (params : Params) (name : String) : Option Float :=
  (params.get? name).bind Param.asNumber?

/-- A number held inside the finite single-precision range; zero when missing or not
    numeric. -/
def amount (params : Params) (name : String) : Float32 :=
  match params.number? name with
  | some value => saturate value
  | none => 0

/-- A count: the number without its fraction, at most `4294967295`; zero when missing,
    not numeric or negative. -/
def count (params : Params) (name : String) : Nat :=
  match params.number? name with
  | some value => if 0 < value then value.toUInt32.toNat else 0
  | none => 0

/-- Seconds, a negative number counting as zero; `fallback` when missing or not
    numeric. -/
def seconds (params : Params) (name : String) (fallback : Float32) : Float32 :=
  match params.number? name with
  | some value => larger (saturate value) 0
  | none => fallback

/-- A text; `fallback` when missing or empty. -/
def text (params : Params) (name fallback : String) : String :=
  match params.get? name with
  | some value => if value.asText.isEmpty then fallback else value.asText
  | none => fallback

end Params

end Troupe.Script
