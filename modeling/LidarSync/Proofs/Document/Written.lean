import LidarSync.Document.Json.Printer
import LidarSync.Proofs.Decimal.Double

/-!
# What a text keeps of a document

JSON has no words for a number that is not finite and writes `null` in its place; TOML has words for
every number. `Document.written` is the document that the text of a document stands for. The JSON
printer writes both of them in the same way (`Document.pretty_written`).
-/

namespace LidarSync

namespace Decimal

open Float.Model (Format)
open Float.Model.UnpackedFloat

/-- JSON writes `null` for a number that is not finite. -/
theorem document_double {x : Float} (h : x.isFinite = false) :
    Layout.document.double x = "null" := by
  have hunpack : (unpack Format.binary64 x.toModel.toBits.toBitVec).isFinite = false := h
  have hmax : @unpackExponent Format.binary64 x.toModel.toBits.toBitVec = -1#11 := by
    by_contra hmax
    rw [isFinite_unpack hmax] at hunpack
    exact absurd hunpack nofun
  have hfield : x.toBits.toNat / twoTo WordFormat.double.fractionBits
      % twoTo WordFormat.double.exponentBits = twoTo WordFormat.double.exponentBits - 1 :=
    (toNat_unpackExponent x.toModel.toBits.toBitVec).symm.trans (congrArg BitVec.toNat hmax)
  unfold Layout.double Word.ofDouble WordFormat.decode
  dsimp only
  rw [if_pos hfield]
  split
  · generalize (x.toBits.toNat / _ % 2 == 1) = negative
    cases negative <;> rfl
  · rfl

end Decimal

namespace Document

mutual

/-- A document with `null` for the numbers that JSON has no words for. -/
def jsonValue : Document → Document
  | unreadable => null
  | float x => if x.isFinite then float x else null
  | single x =>
    match Decimal.WordFormat.single.decode x.bits.toNat with
    | .finite _ _ => single x
    | _ => null
  | list items => list (jsonValues items)
  | record members => record (jsonMembers members)
  | d => d

def jsonValues : List Document → List Document
  | [] => []
  | d :: rest => jsonValue d :: jsonValues rest

def jsonMembers : List (String × Document) → List (String × Document)
  | [] => []
  | (name, d) :: rest => (name, jsonValue d) :: jsonMembers rest

end

/-- The document that the text of a document in a format stands for. -/
def written : Format → Document → Document
  | .json, d => d.jsonValue
  | .toml, d => d

/-- Whether a format has words for a number. -/
def Format.Says : Format → Float → Prop
  | .json, x => x.isFinite = true
  | .toml, _ => True

theorem jsonValues_eq (items : List Document) : jsonValues items = items.map jsonValue := by
  induction items with
  | nil => rfl
  | cons d rest ih => rw [jsonValues, ih, List.map_cons]

theorem jsonMembers_eq (members : List (String × Document)) :
    jsonMembers members = members.map fun (name, d) => (name, d.jsonValue) := by
  induction members with
  | nil => rfl
  | cons m rest ih => rw [jsonMembers, ih, List.map_cons]

theorem written_list (f : Format) (items : List Document) :
    (list items).written f = list (items.map (written f)) := by
  cases f with
  | json =>
    change jsonValue (list items) = list (items.map jsonValue)
    rw [jsonValue, jsonValues_eq]
  | toml =>
    change list items = list (items.map fun d => d)
    rw [List.map_id']

theorem written_record (f : Format) (members : List (String × Document)) :
    (record members).written f = record (members.map fun (name, d) => (name, d.written f)) := by
  cases f with
  | json =>
    change jsonValue (record members) = record (members.map fun (name, d) => (name, d.jsonValue))
    rw [jsonValue, jsonMembers_eq]
  | toml =>
    change record members = record (members.map fun m => m)
    rw [List.map_id']

/-! ## The same text -/

mutual

theorem prettyAt_jsonValue (depth : Nat) :
    ∀ d : Document, prettyAt depth d.jsonValue = prettyAt depth d
  | unreadable => rfl
  | null => rfl
  | bool _ => rfl
  | int _ => rfl
  | text _ => rfl
  | float x => by
    rw [jsonValue]
    split
    · rfl
    · next h => exact (Decimal.document_double (Bool.eq_false_of_not_eq_true h)).symm
  | single x => by
    have htext : prettyAt depth (single x)
        = singleLayout.word (Decimal.WordFormat.single.decode x.bits.toNat) := rfl
    rw [jsonValue, htext]
    cases hword : Decimal.WordFormat.single.decode x.bits.toNat with
    | nan => rfl
    | infinite negative => cases negative <;> rfl
    | finite _ _ => exact htext.trans (congrArg singleLayout.word hword)
  | list items => by
    rw [jsonValue, prettyAt, prettyAt, prettyItems_jsonValues]
  | record members => by
    rw [jsonValue, prettyAt, prettyAt, prettyMembers_jsonMembers]

theorem prettyItems_jsonValues (depth : Nat) :
    ∀ items, prettyItems depth (jsonValues items) = prettyItems depth items
  | [] => rfl
  | d :: rest => by
    rw [jsonValues, prettyItems, prettyItems, prettyAt_jsonValue depth d,
      prettyItems_jsonValues depth rest]

theorem prettyMembers_jsonMembers (depth : Nat) :
    ∀ members, prettyMembers depth (jsonMembers members) = prettyMembers depth members
  | [] => rfl
  | (name, d) :: rest => by
    rw [jsonMembers, prettyMembers, prettyMembers, prettyAt_jsonValue depth d,
      prettyMembers_jsonMembers depth rest]

end

/-- The JSON text of a document is the text of what it stands for. -/
theorem pretty_written (d : Document) : pretty (d.written .json) = pretty d :=
  prettyAt_jsonValue 0 d

end Document

end LidarSync
