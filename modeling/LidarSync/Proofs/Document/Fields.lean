import LidarSync.Document.Fields
import LidarSync.Proofs.Document.Decoder

/-!
# What records are read off their members

A record is put together from its fields. `Fields.Yields r f ms P a` says of some of its fields and of
the members `ms` that stand for them: wherever a record has just these members for these fields, they
are read as `a` under the condition `P`, and else there is a problem. `Fields.Yields.seq` is the rule
for one more field, and `Fields.Yields.decoder` makes the decoder of the record out of all of them.
-/

namespace LidarSync.Document

variable {α β : Type} {f : Format}

/-! ## Records half read -/

namespace Reading

/-- A record half read is one value, and that only under a condition. -/
def Yields (r : Reading α) (P : Prop) (a : α) : Prop := ∀ a', r = .value a' ↔ P ∧ a' = a

theorem Yields.of_value (a : α) : (value a).Yields True a := by
  intro a'
  rw [value.injEq, true_and, eq_comm]

theorem both_eq_value {r : Reading (α → β)} {x : Reading α} {b : β} :
    r.both x = .value b ↔ ∃ g a, r = .value g ∧ x = .value a ∧ g a = b := by
  cases r with
  | value g =>
    cases x with
    | value a =>
      change value (g a) = value b ↔ _
      rw [value.injEq]
      constructor
      · exact fun h => ⟨g, a, rfl, rfl, h⟩
      · rintro ⟨_, _, hg, ha, h⟩
        cases hg
        cases ha
        exact h
    | problem q e => exact iff_of_false nofun fun ⟨_, _, _, h, _⟩ => nomatch h
  | problem p e =>
    refine iff_of_false ?_ fun ⟨_, _, h, _⟩ => nomatch h
    cases x with
    | value a => exact nofun
    | problem q e' =>
      change (if q < p then problem q e' else problem p e) ≠ value b
      split <;> exact nofun

theorem Yields.both {r : Reading (α → β)} {x : Reading α} {P Q : Prop} {g : α → β} {a : α}
    (hr : r.Yields P g) (hx : x.Yields Q a) : (r.both x).Yields (P ∧ Q) (g a) := by
  intro b
  rw [both_eq_value]
  constructor
  · rintro ⟨g', a', hg, ha, rfl⟩
    obtain ⟨hP, rfl⟩ := (hr g').1 hg
    obtain ⟨hQ, rfl⟩ := (hx a').1 ha
    exact ⟨⟨hP, hQ⟩, rfl⟩
  · rintro ⟨⟨hP, hQ⟩, rfl⟩
    exact ⟨g, a, (hr g).2 ⟨hP, rfl⟩, (hx a).2 ⟨hQ, rfl⟩, rfl⟩

theorem placed_eq_value {place : Nat} {x : Except ShapeError α} {a : α} :
    placed place x = .value a ↔ x = .ok a := by
  cases x with
  | error e => exact iff_of_false nofun nofun
  | ok b =>
    change value b = value a ↔ _
    rw [value.injEq, Except.ok.injEq]

theorem toExcept_eq_ok {r : Reading α} {a : α} : r.toExcept = .ok a ↔ r = .value a := by
  cases r with
  | problem p e => exact iff_of_false nofun nofun
  | value b =>
    change Except.ok b = Except.ok a ↔ _
    rw [value.injEq, Except.ok.injEq]

end Reading

theorem Content.find_members {name : String} {ms : List (String × Document)} {d : Document}
    (h : ms.lookup name = some d) (position : Nat) :
    ∃ place, (Content.members ms).find name position = some (place, d) := by
  have hsome : (ms.findIdx? (·.1 == name)).isSome = true := by
    obtain ⟨before, after, rfl, -⟩ := List.lookup_eq_some_iff.1 h
    rw [List.findIdx?_isSome]
    simp
  obtain ⟨place, hplace⟩ := Option.isSome_iff_exists.1 hsome
  refine ⟨place, ?_⟩
  unfold find
  dsimp only
  rw [hplace, h]

theorem Content.find_members_none {name : String} {ms : List (String × Document)}
    (h : ms.lookup name = none) (position : Nat) :
    (Content.members ms).find name position = none := by
  unfold find
  dsimp only
  rw [h]
  cases ms.findIdx? (·.1 == name) <;> rfl

/-! ## Repeated names -/

/-- Of the names of the members, those that are names of fields. -/
def known (names : List String) (ms : List (String × Document)) : List String :=
  (ms.map Prod.fst).filter (· ∈ names)

theorem firstRepeat_eq_none_iff {names seen : List String} {ms : List (String × Document)}
    {place : Nat} : Fields.firstRepeat names seen place ms = none ↔
      (known names ms).Nodup ∧ ∀ name ∈ known names ms, name ∉ seen := by
  unfold known
  induction ms generalizing seen place with
  | nil => exact iff_of_true rfl ⟨List.nodup_nil, fun _ h => absurd h List.not_mem_nil⟩
  | cons m ms ih =>
    obtain ⟨name, x⟩ := m
    rw [Fields.firstRepeat, List.map_cons, List.filter_cons]
    by_cases hname : name ∈ names
    · rw [if_pos hname, if_pos (decide_eq_true hname), List.nodup_cons, List.forall_mem_cons]
      by_cases hseen : name ∈ seen
      · rw [if_pos hseen]
        exact iff_of_false nofun fun h => h.2.1 hseen
      · rw [if_neg hseen, ih]
        constructor
        · rintro ⟨hnodup, hrest⟩
          exact ⟨⟨fun hmem => hrest name hmem List.mem_cons_self, hnodup⟩, hseen,
            fun n hn hmem => hrest n hn (List.mem_cons_of_mem name hmem)⟩
        · rintro ⟨⟨hfresh, hnodup⟩, -, hrest⟩
          refine ⟨hnodup, fun n hn hmem => ?_⟩
          rcases List.mem_cons.1 hmem with rfl | hmem
          · exact hfresh hn
          · exact hrest n hn hmem
    · rw [if_neg hname, if_neg (ne_true_of_eq_false (decide_eq_false hname)), ih]

/-! ## Fields -/

namespace Fields

/-- Some fields of a record are read off the members that stand for them. -/
structure Yields (r : Fields α) (f : Format) (ms : List (String × Document)) (P : Prop)
    (a : α) : Prop where
  /-- The members come in the order of the fields, of which some may be missing. -/
  sublist : (ms.map Prod.fst).Sublist r.names
  read : r.names.Nodup → ∀ {all : List (String × Document)},
    (∀ name ∈ r.names, all.lookup name = ms.lookup name) →
    ∀ i title size, (r.read i ⟨f, title, size, .members all⟩).Yields P a

namespace Yields

theorem imp {r : Fields α} {ms : List (String × Document)} {P Q : Prop} {a : α}
    (h : r.Yields f ms P a) (hPQ : P ↔ Q) : r.Yields f ms Q a where
  sublist := h.sublist
  read hnodup _ hall i title size a' :=
    (h.read hnodup hall i title size a').trans (and_congr_left' hPQ)

theorem pure (a : α) : (Pure.pure a : Fields α).Yields f [] True a where
  sublist := List.Sublist.refl []
  read _ _ _ _ _ _ := .of_value a

variable {name : String} {d : Decoder α} {x : Document} {P Q : Prop} {a : α}

/-- A field that is read off its member wherever there is one. -/
theorem single {r : Fields α} (hnames : r.names = [name])
    (hread : ∀ i s place, s.content.find name i = some (place, x) →
      r.read i s = .placed place (d s.format x)) (h : d.Yields f x P a) :
    r.Yields f [(name, x)] P a where
  sublist := hnames ▸ List.Sublist.refl [name]
  read _ all hall i title size := by
    have hlookup : all.lookup name = some x := by
      rw [hall name (hnames ▸ List.mem_cons_self), List.lookup_cons_self]
    obtain ⟨place, hplace⟩ := Content.find_members hlookup i
    intro a'
    rw [hread i _ place hplace, Reading.placed_eq_value]
    exact h a'

theorem required (name : String) (h : d.Yields f x P a) :
    (required name d).Yields f [(name, x)] P a :=
  single rfl (fun i s place hplace => by unfold Fields.required; dsimp only; rw [hplace]) h

theorem defaulted (name : String) (default : α) (h : d.Yields f x P a) :
    (defaulted name default d).Yields f [(name, x)] P a :=
  single rfl (fun i s place hplace => by unfold Fields.defaulted; dsimp only; rw [hplace]) h

theorem defaulted_absent (name : String) (default : α) (d : Decoder α) :
    (Fields.defaulted name default d).Yields f [] True default where
  sublist := List.nil_sublist _
  read _ all hall i title size := by
    have hlookup : all.lookup name = none := hall name List.mem_cons_self
    unfold Fields.defaulted
    dsimp only
    rw [Content.find_members_none hlookup]
    exact .of_value default

/-- One more field. The members for it are none of the members for the fields before, nor the other
way round, as no two fields have the same name. -/
theorem seq {r : Fields (α → β)} {y : Fields α} {ms ns : List (String × Document)} {g : α → β}
    (hr : r.Yields f ms P g) (hy : y.Yields f ns Q a) :
    (r <*> y).Yields f (ms ++ ns) (P ∧ Q) (g a) where
  sublist := by
    rw [List.map_append]
    exact hr.sublist.append hy.sublist
  read hnodup all hall i title size := by
    obtain ⟨hrnodup, hynodup, hdisjoint⟩ := List.nodup_append.1 hnodup
    have hleft : ∀ name ∈ r.names, all.lookup name = ms.lookup name := by
      intro name hname
      have habsent : ns.lookup name = none := Keyed.get?_eq_none_iff.2 fun hmem =>
        hdisjoint name hname name (hy.sublist.subset hmem) rfl
      rw [hall name (List.mem_append_left _ hname), List.lookup_append, habsent, Option.or_none]
    have hright : ∀ name ∈ y.names, all.lookup name = ns.lookup name := by
      intro name hname
      have habsent : ms.lookup name = none := Keyed.get?_eq_none_iff.2 fun hmem =>
        hdisjoint name (hr.sublist.subset hmem) name hname rfl
      rw [hall name (List.mem_append_right _ hname), List.lookup_append, habsent, Option.none_or]
    exact (hr.read hrnodup hleft i title size).both (hy.read hynodup hright _ title size)

theorem map {y : Fields α} {ns : List (String × Document)} (g : α → β) (hy : y.Yields f ns Q a) :
    (g <$> y).Yields f ns (True ∧ Q) (g a) :=
  (pure g).seq hy

end Yields

/-! ## Records -/

/-- A record is read off an object whose members stand for its fields. -/
theorem Yields.decoder {r : Fields α} {ms : List (String × Document)} {P : Prop} {a : α}
    (h : r.Yields f ms P a) (hnodup : r.names.Nodup) (title : String) :
    (r.decoder title).Yields f (.record ms) P a := by
  have hparts := ((Reading.Yields.of_value fun (a : α) (_ : Unit) => a).both
    (h.read hnodup (fun _ _ => rfl) 0 title r.names.length)).both (Reading.Yields.of_value ())
  have hsurplus : surplus r.names ⟨f, title, r.names.length, .members ms⟩ = .value () := by
    unfold surplus
    dsimp only
    have hknown : (known r.names ms).Nodup := (hnodup.sublist h.sublist).filter _
    rw [firstRepeat_eq_none_iff.2 ⟨hknown, fun _ _ => List.not_mem_nil⟩]
  intro a'
  change r.run title f (.members ms) = .ok a' ↔ _
  unfold run
  dsimp only
  rw [hsurplus, Reading.toExcept_eq_ok, hparts a', true_and, and_true]

/-! ## What is read off any document -/

/-- Whatever is read for some fields of a record has a property. -/
def Ensures (r : Fields α) (Q : α → Prop) : Prop := ∀ ⦃i s a⦄, r.read i s = .value a → Q a

namespace Ensures

variable {Q : α → Prop} {name : String} {d : Decoder α}

theorem any {r : Fields α} : r.Ensures fun _ => True := fun _ _ _ _ => trivial

theorem absent_ne_value {position : Nat} {s : Source} {a : α} :
    absent name position s ≠ .value a := by
  unfold absent
  split <;> exact nofun

theorem required (h : d.Ensures Q) : (required name d).Ensures Q := by
  intro i s a hread
  unfold Fields.required at hread
  dsimp only at hread
  split at hread
  · exact h (Reading.placed_eq_value.1 hread)
  · exact absurd hread absent_ne_value

theorem defaulted {default : α} (h : d.Ensures Q) (hdefault : Q default) :
    (defaulted name default d).Ensures Q := by
  intro i s a hread
  unfold Fields.defaulted at hread
  dsimp only at hread
  split at hread
  · exact h (Reading.placed_eq_value.1 hread)
  · cases hread
    exact hdefault

theorem seq {r : Fields (α → β)} {y : Fields α} {R : β → Prop}
    (hr : r.Ensures fun g => ∀ a, Q a → R (g a)) (hy : y.Ensures Q) : (r <*> y).Ensures R := by
  intro i s b hread
  obtain ⟨g, a, hg, ha, rfl⟩ := Reading.both_eq_value.1 hread
  exact hr hg a (hy ha)

theorem map {y : Fields α} {g : α → β} {R : β → Prop} (hg : ∀ a, Q a → R (g a))
    (hy : y.Ensures Q) : (g <$> y).Ensures R := by
  refine seq (r := Pure.pure g) ?_ hy
  intro i s g' hread
  cases hread
  exact hg

theorem decoder {r : Fields α} (h : r.Ensures Q) (title : String) :
    (r.decoder title).Ensures Q := by
  have hrun : ∀ {f : Format} {c : Content} {a : α}, r.run title f c = .ok a → Q a := by
    intro f c a hrun
    obtain ⟨g, u, hparts, -, rfl⟩ := Reading.both_eq_value.1 (Reading.toExcept_eq_ok.1 hrun)
    obtain ⟨_, a, hg, ha, rfl⟩ := Reading.both_eq_value.1 hparts
    cases hg
    exact h ha
  intro f x a hread
  unfold Fields.decoder at hread
  split at hread
  · exact hrun hread
  · exact hrun hread
  · exact absurd hread Decoder.mistyped_ne_ok

end Ensures

end Fields

end LidarSync.Document
