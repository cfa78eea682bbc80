import LidarSync.Document.Decoder
import LidarSync.Proofs.Document.Written
import LidarSync.Proofs.Keyed
import LidarSync.Proofs.Outcome

/-!
# What decoders read off written documents

`Decoder.Yields d f x P a` says all about a decoder `d` and a document `x`: under the condition `P`
the decoder reads `a`, and else it reads nothing. There is one rule for each decoder of simple
values, lists and maps; those for records are in `LidarSync.Proofs.Document.Fields`.
-/

namespace LidarSync.Document

variable {α β : Type} {f : Format}

/-! ## Simple values -/

/-- A decoder reads one value off a document, and that only under a condition. -/
def Decoder.Yields (d : Decoder α) (f : Format) (x : Document) (P : Prop) (a : α) : Prop :=
  ∀ a', d f x = .ok a' ↔ P ∧ a' = a

namespace Decoder

theorem Yields.imp {d : Decoder α} {x : Document} {P Q : Prop} {a : α} (h : d.Yields f x P a)
    (hPQ : P ↔ Q) : d.Yields f x Q a :=
  fun a' => (h a').trans (and_congr_left' hPQ)

theorem Yields.of_eq_ok {d : Decoder α} {x : Document} {a : α} (h : d f x = .ok a) :
    d.Yields f x True a := by
  intro a'
  rw [h, Except.ok.injEq, true_and, eq_comm]

theorem text_yields (s : String) : text.Yields f ((Document.text s).written f) True s :=
  .of_eq_ok (by cases f <;> rfl)

theorem boolean_yields (b : Bool) : boolean.Yields f ((Document.bool b).written f) True b :=
  .of_eq_ok (by cases f <;> rfl)

theorem natural_yields {w : Width} {n : Nat} (h : n < w.limit) :
    (natural w).Yields f ((Document.int n).written f) True n := by
  have hn : 0 ≤ (n : Int) ∧ (n : Int) < w.limit := ⟨Int.natCast_nonneg n, Int.ofNat_lt.2 h⟩
  have hread : natural w f (.int n) = .ok n := if_pos hn
  refine .of_eq_ok ?_
  cases f <;> exact hread

theorem double_yields (x : Float) : double.Yields f ((Document.float x).written f) (f.Says x) x := by
  cases f with
  | toml => exact .of_eq_ok rfl
  | json =>
    have hwritten : (Document.float x).written .json = if x.isFinite then .float x else .null :=
      jsonValue.eq_def _
    rw [hwritten]
    intro a'
    unfold Format.Says
    split
    · next hfinite =>
      change Except.ok x = Except.ok a' ↔ _
      rw [and_iff_right hfinite, Except.ok.injEq, eq_comm]
    · next hfinite => exact iff_of_false nofun fun h => hfinite h.1

theorem optional_yields {d : Decoder α} {x : Document} {P : Prop} {a : α} (h : d.Yields f x P a)
    (hx : x ≠ .null) : d.optional.Yields f x P (some a) := by
  have hread : d.optional f x = (d f x).map some := by
    unfold optional
    split
    · exact absurd rfl hx
    · rfl
  intro a'
  rw [hread, map_eq_ok]
  constructor
  · rintro ⟨b, hb, rfl⟩
    obtain ⟨hP, rfl⟩ := (h b).1 hb
    exact ⟨hP, rfl⟩
  · rintro ⟨hP, rfl⟩
    exact ⟨a, (h a).2 ⟨hP, rfl⟩, rfl⟩

/-! ## Lists and maps -/

theorem each_yields {d : Decoder α} {write : α → Document} {P : α → Prop} {as : List α}
    (h : ∀ a ∈ as, d.Yields f ((write a).written f) (P a) a) (as' : List α) :
    each d f ((as.map write).map (written f)) = .ok as' ↔ (∀ a ∈ as, P a) ∧ as' = as := by
  induction as generalizing as' with
  | nil =>
    change Except.ok [] = Except.ok as' ↔ _
    rw [Except.ok.injEq, and_iff_right nofun, eq_comm]
  | cons a rest ih =>
    have hhead := h a List.mem_cons_self
    have htail := ih fun b hb => h b (List.mem_cons_of_mem a hb)
    rw [List.map_cons, List.map_cons, each, bind_eq_ok, List.forall_mem_cons]
    constructor
    · rintro ⟨b, hb, hrest⟩
      obtain ⟨others, hothers, hdone⟩ := bind_eq_ok.1 hrest
      cases hdone
      obtain ⟨hP, rfl⟩ := (hhead b).1 hb
      obtain ⟨hall, rfl⟩ := (htail others).1 hothers
      exact ⟨⟨hP, hall⟩, rfl⟩
    · rintro ⟨⟨hP, hall⟩, rfl⟩
      exact ⟨a, (hhead a).2 ⟨hP, rfl⟩, bind_eq_ok.2 ⟨rest, (htail rest).2 ⟨hall, rfl⟩, rfl⟩⟩

theorem listOf_yields {d : Decoder α} {write : α → Document} {P : α → Prop} {as : List α}
    (h : ∀ a ∈ as, d.Yields f ((write a).written f) (P a) a) :
    (listOf d).Yields f ((Document.list (as.map write)).written f) (∀ a ∈ as, P a) as := by
  rw [written_list]
  exact each_yields h

theorem eachValue_texts (m : List (String × String)) :
    eachValue text f (m.map fun (k, v) => (k, Document.text v)) = .ok m := by
  induction m with
  | nil => rfl
  | cons p rest ih =>
    rw [List.map_cons, eachValue, ih]
    rfl

theorem mapOf_yields {m : Keyed String} (h : m.Ascends) :
    (mapOf text).Yields f ((Document.record (m.map fun (k, v) => (k, .text v))).written f)
      True m := by
  refine .of_eq_ok ?_
  have hwritten : (Document.record (m.map fun (k, v) => (k, .text v))).written f =
      .record (m.map fun (k, v) => (k, .text v)) := by
    rw [written_record, List.map_map]
    refine congrArg Document.record (List.map_congr_left fun p _ => ?_)
    cases f <;> rfl
  rw [hwritten]
  change (eachValue text f _).map Keyed.ofList = _
  rw [eachValue_texts]
  exact congrArg Except.ok (Keyed.ofList_of_ascends h)

/-! ## What is read off any document -/

/-- Whatever a decoder reads has a property. -/
def Ensures (d : Decoder α) (Q : α → Prop) : Prop := ∀ ⦃f x a⦄, d f x = .ok a → Q a

theorem mistyped_ne_ok {wanted : Wanted} {x : Document} {a : α} : mistyped wanted x ≠ .ok a := by
  unfold mistyped
  split <;> exact nofun

theorem natural_ensures (w : Width) : (natural w).Ensures (· < w.limit) := by
  intro f x n h
  unfold natural at h
  split at h
  · split at h
    · next m hm =>
      cases h
      omega
    · exact absurd h nofun
  · exact absurd h mistyped_ne_ok

theorem each_ensures {d : Decoder α} {Q : α → Prop} (hd : d.Ensures Q) {xs : List Document}
    {as : List α} (h : each d f xs = .ok as) : ∀ a ∈ as, Q a := by
  induction xs generalizing as with
  | nil =>
    cases h
    exact nofun
  | cons x rest ih =>
    obtain ⟨a, ha, h⟩ := bind_eq_ok.1 h
    obtain ⟨others, hothers, h⟩ := bind_eq_ok.1 h
    cases h
    exact List.forall_mem_cons.2 ⟨hd ha, ih hothers⟩

theorem listOf_ensures {d : Decoder α} {Q : α → Prop} (hd : d.Ensures Q) :
    (listOf d).Ensures fun as => ∀ a ∈ as, Q a := by
  intro f x as h
  unfold listOf at h
  split at h
  · exact each_ensures hd h
  · exact absurd h mistyped_ne_ok

theorem mapOf_ensures (d : Decoder α) : (mapOf d).Ensures Keyed.Ascends := by
  intro f x m h
  unfold mapOf at h
  split at h
  · obtain ⟨pairs, -, rfl⟩ := map_eq_ok.1 h
    exact Keyed.ascends_ofList pairs
  · exact absurd h mistyped_ne_ok

end Decoder

end LidarSync.Document
