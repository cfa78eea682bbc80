import LidarSync.Proofs.Document.Fields
import LidarSync.Proofs.Document.Respelling

/-!
# Records that are written in other words

A record is read by looking up, for each of its fields, the document that stands for it
(`Content.at?`), and it is refused if an object repeats a field or a list is too long (`Content.Fits`).
So one content may take the place of another if it fits and has for each field a document that is as
good (`Content.Serves`). Every respelling of a record does that, which makes the decoder of a record
follow its schema if its fields do (`Fields.Follows.decoder`).
-/

namespace LidarSync.Document

variable {α β : Type} {f : Format}

/-! ## What stands for a field -/

/-- The document for the field with a name and a position. -/
def Content.at? (name : String) (position : Nat) : Content → Option Document
  | members ms => ms.lookup name
  | elements xs => xs[position]?

theorem Content.exists_find (c : Content) (name : String) (position : Nat) :
    ∃ place, c.find name position = (c.at? name position).map (place, ·) := by
  cases c with
  | elements xs => exact ⟨position, rfl⟩
  | members ms =>
    unfold at?
    dsimp only
    cases hlookup : ms.lookup name with
    | none => exact ⟨0, find_members_none hlookup position⟩
    | some x => exact find_members hlookup position

/-- The documents that may take the place of the one for a field. -/
inductive Kept (field : Field Schema) : Option Document → Option Document → Prop where
  | same (x : Option Document) : Kept field x x
  | respelled {x y : Document} (h : Respelling field.content x y) : Kept field (some x) (some y)
  | leftOut {x : Document} (h : field.usual x) : Kept field (some x) none
  | writtenOut {y : Document} (h : field.usual y) : Kept field none (some y)

/-! ## Fields -/

namespace Fields

/-- A part of a record depends on the documents for its fields alone, and each of them may be replaced by
one that is as good. -/
structure Follows (r : Fields α) (f : Format) (fields : List (Field Schema)) : Prop where
  names : r.names = fields.map (·.name)
  read : ∀ {i : Nat} {s s' : Source} {a : α}, s.format = f → s'.format = f →
    (∀ k field, fields[k]? = some field →
      Kept field (s.content.at? field.name (i + k)) (s'.content.at? field.name (i + k))) →
    r.read i s = .value a → r.read i s' = .value a

theorem required_eq_value {name : String} {d : Decoder α} {i : Nat} {s : Source} {a : α} :
    (required name d).read i s = .value a ↔
      ∃ x, s.content.at? name i = some x ∧ d s.format x = .ok a := by
  obtain ⟨place, hfind⟩ := s.content.exists_find name i
  unfold required
  dsimp only
  rw [hfind]
  cases s.content.at? name i with
  | none => exact iff_of_false Ensures.absent_ne_value fun ⟨_, h, _⟩ => nomatch h
  | some x =>
    rw [Option.map_some]
    dsimp only
    rw [Reading.placed_eq_value]
    exact ⟨fun h => ⟨x, rfl, h⟩, fun ⟨_, hx, h⟩ => Option.some.inj hx ▸ h⟩

theorem defaulted_eq_value {name : String} {default : α} {d : Decoder α} {i : Nat} {s : Source}
    {a : α} : (defaulted name default d).read i s = .value a ↔
      (s.content.at? name i = none ∧ default = a) ∨
        ∃ x, s.content.at? name i = some x ∧ d s.format x = .ok a := by
  obtain ⟨place, hfind⟩ := s.content.exists_find name i
  unfold defaulted
  dsimp only
  rw [hfind]
  cases s.content.at? name i with
  | none =>
    rw [Option.map_none]
    dsimp only
    rw [Reading.value.injEq]
    exact ⟨fun h => Or.inl ⟨rfl, h⟩, fun h => h.elim And.right fun ⟨_, hx, _⟩ => nomatch hx⟩
  | some x =>
    rw [Option.map_some]
    dsimp only
    rw [Reading.placed_eq_value]
    exact ⟨fun h => Or.inr ⟨x, rfl, h⟩,
      fun h => h.elim (fun h => nomatch h.1) fun ⟨_, hx, h⟩ => Option.some.inj hx ▸ h⟩

namespace Follows

variable {name : String} {d : Decoder α} {schema : Schema}

theorem pure (a : α) : (Pure.pure a : Fields α).Follows f [] where
  names := rfl
  read _ _ _ h := h

theorem required (name : String) (hd : d.Follows f schema) :
    (required name d).Follows f [.required name schema] where
  names := rfl
  read {i s s' a} hs hs' hkept h := by
    obtain ⟨x, hx, hread⟩ := required_eq_value.1 h
    have hkept : Kept (.required name schema) (s.content.at? name i) (s'.content.at? name i) :=
      hkept 0 _ rfl
    rw [hx] at hkept
    rw [hs] at hread
    refine required_eq_value.2 ?_
    rw [hs']
    cases hy : s'.content.at? name i with
    | none =>
      rw [hy] at hkept
      cases hkept with
      | leftOut husual => exact husual.elim
    | some y =>
      rw [hy] at hkept
      cases hkept with
      | same => exact ⟨x, rfl, hread⟩
      | respelled hxy => exact ⟨y, rfl, hd hxy hread⟩

theorem defaulted (name : String) (default : α) (hd : d.Follows f schema) :
    (defaulted name default d).Follows f [.defaulted f name default d schema] where
  names := rfl
  read {i s s' a} hs hs' hkept h := by
    have hkept : Kept (.defaulted f name default d schema) (s.content.at? name i)
        (s'.content.at? name i) := hkept 0 _ rfl
    have h := defaulted_eq_value.1 h
    refine defaulted_eq_value.2 ?_
    rw [hs'] 
    rw [hs] at h
    generalize s.content.at? name i = x? at hkept h
    generalize s'.content.at? name i = y? at hkept
    cases hkept with
    | same => exact h
    | respelled hxy =>
      rcases h with ⟨hnone, -⟩ | ⟨_, hx, hread⟩
      · exact absurd hnone nofun
      · cases hx
        exact Or.inr ⟨_, rfl, hd hxy hread⟩
    | leftOut husual =>
      rcases h with ⟨hnone, -⟩ | ⟨_, hx, hread⟩
      · exact absurd hnone nofun
      · cases hx
        exact Or.inl ⟨rfl, Except.ok.inj (husual.symm.trans hread)⟩
    | writtenOut husual =>
      rcases h with ⟨-, rfl⟩ | ⟨_, hx, -⟩
      · exact Or.inr ⟨_, rfl, husual⟩
      · exact absurd hx nofun

theorem seq {r : Fields (α → β)} {y : Fields α} {fields fields' : List (Field Schema)}
    (hr : r.Follows f fields) (hy : y.Follows f fields') :
    (r <*> y).Follows f (fields ++ fields') where
  names := by
    rw [List.map_append, ← hr.names, ← hy.names]
    rfl
  read {i s s' b} hs hs' hkept h := by
    obtain ⟨g, a, hg, ha, rfl⟩ := Reading.both_eq_value.1 h
    have hlength : r.names.length = fields.length := by rw [hr.names, List.length_map]
    refine Reading.both_eq_value.2 ⟨g, a, hr.read hs hs' ?_ hg, hy.read hs hs' ?_ ha, rfl⟩
    · intro k field hk
      refine hkept k field ?_
      rw [List.getElem?_append_left (List.getElem?_eq_some_iff.1 hk).1]
      exact hk
    · intro k field hk
      rw [hlength, Nat.add_assoc]
      refine hkept (fields.length + k) field ?_
      rw [List.getElem?_append_right (Nat.le_add_right _ _), Nat.add_sub_cancel_left]
      exact hk

theorem map {y : Fields α} {fields : List (Field Schema)} (g : α → β) (hy : y.Follows f fields) :
    (g <$> y).Follows f fields :=
  (pure g).seq hy

end Follows

end Fields

/-! ## Records -/

open Fields

/-- What an object or a list must not have too much of. -/
def Content.Fits (names : List String) (f : Format) : Content → Prop
  | .members ms => (known names ms).Nodup
  | .elements xs => f = .json → xs.length ≤ names.length

theorem surplus_eq_value_iff {names : List String} {s : Source} :
    surplus names s = .value () ↔ Content.Fits names s.format s.content := by
  unfold surplus
  cases s.content with
  | members ms =>
    dsimp only [Content.Fits]
    cases hrepeat : firstRepeat names [] 0 ms with
    | none => exact iff_of_true rfl (firstRepeat_eq_none_iff.1 hrepeat).1
    | some p =>
      refine iff_of_false nofun fun hnodup => ?_
      have hnone : firstRepeat names [] 0 ms = none :=
        firstRepeat_eq_none_iff.2 ⟨hnodup, fun _ _ => List.not_mem_nil⟩
      exact absurd (hnone.symm.trans hrepeat) nofun
  | elements xs =>
    dsimp only [Content.Fits]
    split
    · next h => exact iff_of_false nofun fun hfits => absurd (hfits h.1) (Nat.not_le.2 h.2)
    · next h => exact iff_of_true rfl fun hjson => Nat.not_lt.1 fun hlt => h ⟨hjson, hlt⟩

theorem Fields.run_eq_ok {r : Fields α} {title : String} {c : Content} {a : α} :
    r.run title f c = .ok a ↔
      r.read 0 ⟨f, title, r.names.length, c⟩ = .value a ∧ c.Fits r.names f := by
  have hsurplus : surplus r.names ⟨f, title, r.names.length, c⟩ = .value () ↔ c.Fits r.names f :=
    surplus_eq_value_iff
  unfold run
  dsimp only
  rw [Reading.toExcept_eq_ok, Reading.both_eq_value, ← hsurplus]
  constructor
  · rintro ⟨g, _, hparts, hsurplus, rfl⟩
    obtain ⟨_, a, hg, ha, rfl⟩ := Reading.both_eq_value.1 hparts
    cases hg
    exact ⟨ha, hsurplus⟩
  · rintro ⟨ha, hsurplus⟩
    exact ⟨fun _ => a, (), Reading.both_eq_value.2 ⟨_, a, rfl, ha, rfl⟩, hsurplus, rfl⟩

/-! ## Members -/

section Members

variable {names : List String} {name : String} {before after : List (String × Document)}
  {x y : Document}

theorem known_append (ms ms' : List (String × Document)) :
    known names (ms ++ ms') = known names ms ++ known names ms' := by
  unfold known
  rw [List.map_append, List.filter_append]

theorem known_cons (hname : name ∈ names) (ms : List (String × Document)) :
    known names ((name, x) :: ms) = name :: known names ms := by
  unfold known
  exact List.filter_cons_of_pos (decide_eq_true hname)

theorem known_cons_of_notMem (hname : name ∉ names) (ms : List (String × Document)) :
    known names ((name, x) :: ms) = known names ms := by
  unfold known
  exact List.filter_cons_of_neg (ne_true_of_eq_false (decide_eq_false hname))

theorem lookup_eq_none_of_known (hname : name ∈ names) {ms : List (String × Document)}
    (h : name ∉ known names ms) : ms.lookup name = none :=
  Keyed.get?_eq_none_iff.2 fun hmem => h (List.mem_filter.2 ⟨hmem, decide_eq_true hname⟩)

/-- A field that has a member has no other one. -/
theorem lookup_around (hname : name ∈ names)
    (h : (known names (before ++ (name, x) :: after)).Nodup) :
    before.lookup name = none ∧ after.lookup name = none := by
  rw [known_append, known_cons hname] at h
  obtain ⟨-, hafter, hdisjoint⟩ := List.nodup_append.1 h
  exact ⟨lookup_eq_none_of_known hname fun hmem => hdisjoint name hmem name List.mem_cons_self rfl,
    lookup_eq_none_of_known hname (List.nodup_cons.1 hafter).1⟩

theorem lookup_middle_self (hname : name ∈ names)
    (h : (known names (before ++ (name, x) :: after)).Nodup) (y : Document) :
    (before ++ (name, y) :: after).lookup name = some y := by
  rw [List.lookup_append, (lookup_around hname h).1, List.lookup_cons_self, Option.none_or]

theorem lookup_middle_of_ne {n : String} (hn : n ≠ name) :
    (before ++ (name, x) :: after).lookup n = (before ++ after).lookup n := by
  rw [List.lookup_append, List.lookup_append, List.lookup_cons, beq_eq_false_iff_ne.2 hn]

/-- Where no field has several members, their order does not matter. -/
theorem lookup_perm {ms ms' : List (String × Document)} (hname : name ∈ names)
    (h : (known names ms).Nodup) (hperm : ms.Perm ms') : ms.lookup name = ms'.lookup name := by
  have hiff : ∀ {ms : List (String × Document)}, (known names ms).Nodup → ∀ x,
      ms.lookup name = some x ↔ (name, x) ∈ ms := by
    intro ms hms x
    refine ⟨fun hlookup => Keyed.mem_of_get? hlookup, fun hmem => ?_⟩
    obtain ⟨before, after, rfl⟩ := List.append_of_mem hmem
    exact lookup_middle_self hname hms x
  have h' : (known names ms').Nodup := (((hperm.map Prod.fst).filter _).nodup_iff).1 h
  refine Option.ext fun x => ?_
  rw [hiff h, hiff h', hperm.mem_iff]

/-- Names of any kind may come in any order, if no two of them are the same. -/
theorem Respelling.reorderMap_of_nodup {ms ms' : List (String × Document)} (hperm : ms.Perm ms')
    (h : (ms.map Prod.fst).Nodup) : Respelling .map (.record ms) (.record ms') := by
  have h' : (ms'.map Prod.fst).Nodup := (hperm.map Prod.fst).nodup_iff.1 h
  refine .reorderMap hperm fun name => ?_
  have hlookup : Keyed.get? ms name = Keyed.get? ms' name :=
    lookup_perm (List.mem_singleton_self name) (h.filter _) hperm
  rw [Keyed.filter_name h, Keyed.filter_name h', hlookup]

end Members

/-! ## Respelled records -/

/-- One content of a record may take the place of another. -/
structure Content.Serves (fields : List (Field Schema)) (f : Format) (c c' : Content) : Prop where
  kept : ∀ k field, fields[k]? = some field →
    Kept field (c.at? field.name k) (c'.at? field.name k)
  fits : c'.Fits (fields.map (·.name)) f

section Records

variable {fields : List (Field Schema)}

theorem serves_of_members {ms ms' : List (String × Document)}
    (hkept : ∀ field ∈ fields, Kept field (ms.lookup field.name) (ms'.lookup field.name))
    (hfits : (known (fields.map (·.name)) ms').Nodup) :
    Content.Serves fields f (.members ms) (.members ms') where
  kept _ field hk := hkept field (List.mem_of_getElem? hk)
  fits := hfits

theorem name_mem {field : Field Schema} (hfield : field ∈ fields) :
    field.name ∈ fields.map (·.name) :=
  List.mem_map_of_mem hfield

theorem serves_reorder {ms ms' : List (String × Document)} (hperm : ms.Perm ms')
    (h : (known (fields.map (·.name)) ms).Nodup) :
    Content.Serves fields f (.members ms) (.members ms') := by
  refine serves_of_members (fun field hfield => ?_) ((((hperm.map Prod.fst).filter _).nodup_iff).1 h)
  rw [lookup_perm (name_mem hfield) h hperm]
  exact .same _

variable {before after : List (String × Document)} {x y : Document}

section Unknown

variable {name : String} (hname : ∀ field ∈ fields, field.name ≠ name)
include hname

theorem known_unknown : known (fields.map (·.name)) (before ++ (name, x) :: after) =
    known (fields.map (·.name)) (before ++ after) := by
  have hmem : name ∉ fields.map (·.name) := fun hmem => by
    obtain ⟨field, hfield, heq⟩ := List.mem_map.1 hmem
    exact hname field hfield heq
  rw [known_append, known_append, known_cons_of_notMem hmem]

theorem serves_addUnknown (h : (known (fields.map (·.name)) (before ++ after)).Nodup) :
    Content.Serves fields f (.members (before ++ after))
      (.members (before ++ (name, x) :: after)) := by
  refine serves_of_members (fun field hfield => ?_) ?_
  · rw [lookup_middle_of_ne (hname field hfield)]
    exact .same _
  · rw [known_unknown hname]
    exact h

theorem serves_changeUnknown
    (h : (known (fields.map (·.name)) (before ++ (name, x) :: after)).Nodup) :
    Content.Serves fields f (.members (before ++ (name, x) :: after))
      (.members (before ++ (name, y) :: after)) := by
  refine serves_of_members (fun field hfield => ?_) ?_
  · rw [lookup_middle_of_ne (hname field hfield), lookup_middle_of_ne (hname field hfield)]
    exact .same _
  · rw [known_unknown hname] at h ⊢
    exact h

end Unknown

section Known

variable (hnodup : (fields.map (·.name)).Nodup) {field : Field Schema} (hfield : field ∈ fields)
include hnodup hfield

/-- Fields of the same name are the same. -/
theorem ne_or_eq {field' : Field Schema} (hfield' : field' ∈ fields) :
    field'.name ≠ field.name ∨ field' = field := by
  by_cases h : field'.name = field.name
  · exact Or.inr (List.inj_on_of_nodup_map hnodup hfield' hfield h)
  · exact Or.inl h

theorem serves_leaveOut (husual : field.usual x)
    (h : (known (fields.map (·.name)) (before ++ (field.name, x) :: after)).Nodup) :
    Content.Serves fields f (.members (before ++ (field.name, x) :: after))
      (.members (before ++ after)) := by
  refine serves_of_members (fun field' hfield' => ?_) ?_
  · rcases ne_or_eq hnodup hfield hfield' with hne | rfl
    · rw [lookup_middle_of_ne hne]
      exact .same _
    · obtain ⟨hbefore, hafter⟩ := lookup_around (name_mem hfield) h
      rw [lookup_middle_self (name_mem hfield) h, List.lookup_append, hbefore, hafter]
      exact .leftOut husual
  · rw [known_append, known_cons (name_mem hfield)] at h
    rw [known_append]
    exact h.sublist ((List.sublist_cons_self _ _).append_left _)

theorem serves_member (hxy : Respelling field.content x y)
    (h : (known (fields.map (·.name)) (before ++ (field.name, x) :: after)).Nodup) :
    Content.Serves fields f (.members (before ++ (field.name, x) :: after))
      (.members (before ++ (field.name, y) :: after)) := by
  refine serves_of_members (fun field' hfield' => ?_) ?_
  · rcases ne_or_eq hnodup hfield hfield' with hne | rfl
    · rw [lookup_middle_of_ne hne, lookup_middle_of_ne hne]
      exact .same _
    · rw [lookup_middle_self (name_mem hfield) h, lookup_middle_self (name_mem hfield) h]
      exact .respelled hxy
  · rw [known_append, known_cons (name_mem hfield)] at h ⊢
    exact h

end Known

theorem serves_asList {rest : List (Field Schema)} {ms : List (String × Document)}
    {xs : List Document} (h : List.Forall₂ (Field.Stands ms) fields xs)
    (hrest : ∀ field ∈ rest, ∀ x, ms.lookup field.name = some x → field.usual x) :
    Content.Serves (fields ++ rest) f (.members ms) (.elements xs) where
  kept k field hk := by
    change Kept _ (ms.lookup _) xs[k]?
    obtain ⟨hlength, hstands⟩ := List.forall₂_iff_get.1 h
    by_cases hlt : k < fields.length
    · rw [List.getElem?_append_left hlt, List.getElem?_eq_getElem hlt] at hk
      cases hk
      have hx : xs[k]? = some (xs.get ⟨k, hlength ▸ hlt⟩) := List.getElem?_eq_getElem _
      rw [hx]
      cases hstands k hlt (hlength ▸ hlt) with
      | member hlookup =>
        change ms.lookup fields[k].name = _ at hlookup
        rw [hlookup]
        exact .same _
      | usual habsent husual =>
        change ms.lookup fields[k].name = _ at habsent
        rw [habsent]
        exact .writtenOut husual
    · have hge := Nat.not_lt.1 hlt
      rw [List.getElem?_append_right hge] at hk
      rw [List.getElem?_eq_none (hlength ▸ hge)]
      cases hlookup : ms.lookup field.name with
      | none => exact .same none
      | some x => exact .leftOut (hrest field (List.mem_of_getElem? hk) x hlookup)
  fits _ := by
    rw [List.length_map, List.length_append, h.length_eq]
    exact Nat.le_add_right _ _

variable {field : Field Schema}

theorem serves_leaveOutLast {xs : List Document} (hfield : fields[xs.length]? = some field)
    (husual : field.usual x) (h : (Content.elements (xs ++ [x])).Fits (fields.map (·.name)) f) :
    Content.Serves fields f (.elements (xs ++ [x])) (.elements xs) where
  kept k field' hk := by
    change Kept _ (xs ++ [x])[k]? xs[k]?
    rcases Nat.lt_trichotomy k xs.length with hlt | rfl | hgt
    · rw [List.getElem?_append_left hlt]
      exact .same _
    · cases hfield.symm.trans hk
      rw [List.getElem?_concat_length, List.getElem?_eq_none (Nat.le_refl _)]
      exact .leftOut husual
    · rw [List.getElem?_eq_none (by rw [List.length_append, List.length_singleton]; exact hgt),
        List.getElem?_eq_none (Nat.le_of_lt hgt)]
      exact .same _
  fits hjson := by
    have hlength := h hjson
    rw [List.length_append, List.length_singleton] at hlength
    exact Nat.le_of_succ_le hlength

theorem serves_element {before after : List Document} (hfield : fields[before.length]? = some field)
    (hxy : Respelling field.content x y)
    (h : (Content.elements (before ++ x :: after)).Fits (fields.map (·.name)) f) :
    Content.Serves fields f (.elements (before ++ x :: after)) (.elements (before ++ y :: after)) where
  kept k field' hk := by
    change Kept _ (before ++ x :: after)[k]? (before ++ y :: after)[k]?
    rcases Nat.lt_trichotomy k before.length with hlt | rfl | hgt
    · rw [List.getElem?_append_left hlt, List.getElem?_append_left hlt]
      exact .same _
    · cases hfield.symm.trans hk
      rw [List.getElem?_append_right (Nat.le_refl _), List.getElem?_append_right (Nat.le_refl _),
        Nat.sub_self]
      exact .respelled hxy
    · obtain ⟨n, rfl⟩ := Nat.exists_eq_add_of_lt hgt
      have hsub : before.length + n + 1 - before.length = n + 1 := by omega
      rw [List.getElem?_append_right (by omega), List.getElem?_append_right (by omega), hsub,
        List.getElem?_cons_succ, List.getElem?_cons_succ]
      exact .same _
  fits hjson := by
    have hlength := h hjson
    rw [List.length_append, List.length_cons] at hlength ⊢
    exact hlength

end Records

namespace Fields.Follows

variable {r : Fields α} {fields : List (Field Schema)} {title : String} {a : α}

theorem run (hr : r.Follows f fields) {c c' : Content} (hrun : r.run title f c = .ok a)
    (h : c.Fits (fields.map (·.name)) f → c.Serves fields f c') : r.run title f c' = .ok a := by
  obtain ⟨hread, hfits⟩ := run_eq_ok.1 hrun
  have hserves := h (hr.names ▸ hfits)
  refine run_eq_ok.2 ⟨hr.read rfl rfl (fun k field hk => ?_) hread, hr.names ▸ hserves.fits⟩
  rw [Nat.zero_add]
  exact hserves.kept k field hk

/-- A record is read the same off every respelling, if its fields are. -/
theorem decoder (hr : r.Follows f fields) (hnodup : r.names.Nodup) (title : String) :
    (r.decoder title).Follows f (.record fields) := by
  rw [hr.names] at hnodup
  intro x y a hxy hx
  cases hxy with
  | reorder hperm => exact hr.run hx (serves_reorder hperm)
  | addUnknown hname => exact hr.run hx (serves_addUnknown hname)
  | changeUnknown hname => exact hr.run hx (serves_changeUnknown hname)
  | leaveOut hfield husual => exact hr.run hx (serves_leaveOut hnodup hfield husual)
  | asList hstands hrest => exact hr.run hx fun _ => serves_asList hstands hrest
  | leaveOutLast hfield husual => exact hr.run hx (serves_leaveOutLast hfield husual)
  | member hfield hxy => exact hr.run hx (serves_member hnodup hfield hxy)
  | element hfield hxy => exact hr.run hx (serves_element hfield hxy)

end Fields.Follows

end LidarSync.Document
