import LidarSync.Keyed
import Mathlib.Data.String.Basic
import Mathlib.Data.List.Forall2
import Mathlib.Data.List.Induction

/-!
# Lookups in ascending association lists

What `insert` and `ofList` do to the two views of a `Keyed` list: the value that `get?` finds, and
the names in `keys`. Names stay in strictly ascending order (`Keyed.Ascends`), so a pair of the list
is a lookup that succeeds (`Keyed.mem_iff_get?`), and lists built over the same names have the same
names (`Keyed.keys_ofList`).
-/

namespace LidarSync

namespace Keyed

variable {α β : Type}

/-! ## The value of a name -/

@[simp] theorem get?_nil (k : String) : get? ([] : Keyed α) k = none := rfl

theorem get?_cons (n : String) (v : α) (m : Keyed α) (k : String) :
    get? ((n, v) :: m) k = if k = n then some v else get? m k := by
  unfold get?
  rw [List.lookup_cons]
  by_cases h : k = n
  · rw [if_pos h, beq_iff_eq.2 h]
  · rw [if_neg h, beq_eq_false_iff_ne.2 h]

theorem get?_insert (k : String) (v : α) (m : Keyed α) (k' : String) :
    get? (insert k v m) k' = if k' = k then some v else get? m k' := by
  induction m with
  | nil => exact get?_cons k v [] k'
  | cons p rest ih =>
    obtain ⟨n, old⟩ := p
    unfold insert
    split
    · next hkn =>
      subst hkn
      rw [get?_cons, get?_cons]
      by_cases h : k' = k
      · rw [if_pos h, if_pos h]
      · rw [if_neg h, if_neg h, if_neg h]
    · next hkn =>
      split
      · rw [get?_cons]
      · rw [get?_cons, ih, get?_cons]
        by_cases h : k' = n
        · have hk : k' ≠ k := fun e => hkn (e ▸ h)
          rw [if_pos h, if_pos h, if_neg hk]
        · rw [if_neg h, if_neg h]

theorem get?_map (f : String → α → β) (m : Keyed α) (k : String) :
    get? (m.map fun p => (p.1, f p.1 p.2)) k = (get? m k).map (f k) := by
  induction m with
  | nil => rfl
  | cons p rest ih =>
    obtain ⟨n, v⟩ := p
    rw [List.map_cons, get?_cons, get?_cons, ih]
    by_cases h : k = n
    · rw [if_pos h, if_pos h, h]
      rfl
    · rw [if_neg h, if_neg h]

/-! ## The names -/

@[simp] theorem keys_nil : keys ([] : Keyed α) = [] := rfl

@[simp] theorem keys_cons (p : String × α) (m : Keyed α) : keys (p :: m) = p.1 :: keys m := rfl

theorem mem_keys_iff {m : Keyed α} {k : String} : k ∈ keys m ↔ (get? m k).isSome := by
  induction m with
  | nil => simp
  | cons p rest ih =>
    obtain ⟨n, v⟩ := p
    rw [keys_cons, List.mem_cons, get?_cons, ih]
    by_cases h : k = n
    · simp [h]
    · simp [h]

theorem mem_of_get? {m : Keyed α} {k : String} {v : α} (h : get? m k = some v) : (k, v) ∈ m := by
  obtain ⟨before, after, rfl, _⟩ := List.lookup_eq_some_iff.1 h
  exact List.mem_append_right before List.mem_cons_self

theorem get?_eq_none_iff {m : Keyed α} {k : String} : get? m k = none ↔ k ∉ keys m := by
  rw [mem_keys_iff, Option.not_isSome_iff_eq_none]

/-- An insertion changes the names in a way that depends on the names alone. -/
theorem keys_insert_congr (k : String) (v : α) (w : β) {m : Keyed α} {m' : Keyed β}
    (h : keys m = keys m') : keys (insert k v m) = keys (insert k w m') := by
  induction m generalizing m' with
  | nil =>
    cases m' with
    | nil => rfl
    | cons p rest => exact absurd h (by simp)
  | cons p rest ih =>
    cases m' with
    | nil => exact absurd h (by simp)
    | cons p' rest' =>
      obtain ⟨n, old⟩ := p
      obtain ⟨n', old'⟩ := p'
      rw [keys_cons, keys_cons, List.cons.injEq] at h
      obtain ⟨rfl, hrest⟩ := h
      unfold insert
      split
      · simp [hrest]
      · split
        · simp [hrest]
        · rw [keys_cons, keys_cons, ih hrest]

theorem mem_keys_insert {k k' : String} {v : α} {m : Keyed α} :
    k' ∈ keys (insert k v m) ↔ k' = k ∨ k' ∈ keys m := by
  rw [mem_keys_iff, get?_insert, mem_keys_iff]
  by_cases h : k' = k
  · simp [h]
  · simp [h]

/-- The names are in strictly ascending order. -/
def Ascends (m : Keyed α) : Prop := (keys m).Pairwise (· < ·)

/-- Whether names are in order does not depend on what they name. -/
theorem Ascends.congr {β : Type} {m : Keyed α} {m' : Keyed β} (h : Ascends m)
    (hkeys : keys m' = keys m) : Ascends m' := by
  unfold Ascends
  rwa [hkeys]

theorem Ascends.nodup {m : Keyed α} (h : Ascends m) : (keys m).Nodup :=
  List.Pairwise.imp (fun hlt => ne_of_lt hlt) h

theorem Ascends.insert {m : Keyed α} (h : Ascends m) (k : String) (v : α) :
    Ascends (Keyed.insert k v m) := by
  induction m with
  | nil => exact List.pairwise_singleton _ _
  | cons p rest ih =>
    obtain ⟨n, old⟩ := p
    obtain ⟨hn, hrest⟩ := List.pairwise_cons.1 h
    unfold Keyed.insert
    split
    · next hkn =>
      subst hkn
      exact List.pairwise_cons.2 ⟨hn, hrest⟩
    · next hkn =>
      split
      · next hlt =>
        refine List.pairwise_cons.2 ⟨fun x hx => ?_, h⟩
        rcases List.mem_cons.1 hx with rfl | hx
        · exact hlt
        · exact lt_trans hlt (hn x hx)
      · next hlt =>
        refine List.pairwise_cons.2 ⟨fun x hx => ?_, ih hrest⟩
        rcases mem_keys_insert.1 hx with rfl | hx
        · exact lt_of_le_of_ne (not_lt.1 hlt) (Ne.symm hkn)
        · exact hn x hx

/-- In an ascending list a pair is a lookup that succeeds. -/
theorem mem_iff_get? {m : Keyed α} (h : Ascends m) {k : String} {v : α} :
    (k, v) ∈ m ↔ get? m k = some v := by
  refine ⟨fun hmem => ?_, mem_of_get?⟩
  induction m with
  | nil => exact absurd hmem List.not_mem_nil
  | cons p rest ih =>
    obtain ⟨n, w⟩ := p
    obtain ⟨hn, hrest⟩ := List.pairwise_cons.1 h
    rw [get?_cons]
    rcases List.mem_cons.1 hmem with heq | hmem
    · rw [if_pos (Prod.mk.inj heq).1, (Prod.mk.inj heq).2]
    · have hne : k ≠ n := fun hk => absurd (hn k (List.mem_map_of_mem hmem)) (by simp [hk])
      rw [if_neg hne]
      exact ih hrest hmem

/-- Ascending lists are the same if all lookups are. -/
theorem Ascends.eq_of_get? {m m' : Keyed α} (hm : Ascends m) (hm' : Ascends m')
    (h : ∀ k, get? m k = get? m' k) : m = m' := by
  have hpairwise : ∀ {l : Keyed α}, Ascends l → l.Pairwise fun p q => p.1 < q.1 :=
    fun hl => List.pairwise_map.1 hl
  have hnodup : ∀ {l : Keyed α}, Ascends l → l.Nodup := fun hl =>
    (hpairwise hl).imp fun hlt heq => ne_of_lt hlt (congrArg Prod.fst heq)
  have hperm : m.Perm m' := (List.perm_ext_iff_of_nodup (hnodup hm) (hnodup hm')).2 fun p => by
    rw [← Prod.mk.eta (p := p), mem_iff_get? hm, mem_iff_get? hm', h]
  exact hperm.eq_of_pairwise (fun p q _ _ hpq hqp => absurd hpq (lt_asymm hqp)) (hpairwise hm)
    (hpairwise hm')

/-! ## Choices -/

/-- The names whose value passes a test. -/
def namesWhere (p : α → Bool) (m : Keyed α) : List String := (m.filter (p ·.2)).map Prod.fst

theorem filter_name {m : Keyed α} (h : (keys m).Nodup) (k : String) :
    m.filter (·.1 == k) = (get? m k).toList.map (k, ·) := by
  induction m with
  | nil => rfl
  | cons p rest ih =>
    obtain ⟨n, v⟩ := p
    obtain ⟨hnew, hrest⟩ := List.nodup_cons.1 h
    rw [get?_cons]
    by_cases heq : k = n
    · subst heq
      have hnone : get? rest k = none := get?_eq_none_iff.2 hnew
      rw [if_pos rfl, List.filter_cons, if_pos (beq_self_eq_true k), ih hrest, hnone]
      rfl
    · have hne : ¬ (n == k) = true := fun hb => heq (beq_iff_eq.1 hb).symm
      rw [if_neg heq, List.filter_cons, if_neg hne, ih hrest]

theorem namesWhere_eq_filterMap (p : α → Bool) (m : Keyed α) :
    m.namesWhere p = m.filterMap fun q => if p q.2 then some q.1 else none := by
  induction m with
  | nil => rfl
  | cons q rest ih =>
    unfold namesWhere at ih ⊢
    rw [List.filter_cons, List.filterMap_cons]
    split
    · rw [List.map_cons, ih]
    · exact ih

theorem namesWhere_pairwise {m : Keyed α} (h : Ascends m) (p : α → Bool) :
    (m.namesWhere p).Pairwise (· < ·) :=
  List.Pairwise.sublist (List.filter_sublist.map Prod.fst) h

theorem mem_namesWhere_iff {m : Keyed α} (h : Ascends m) {p : α → Bool} {k : String} :
    k ∈ m.namesWhere p ↔ ∃ v, get? m k = some v ∧ p v = true := by
  unfold namesWhere
  rw [List.mem_map]
  constructor
  · rintro ⟨⟨n, v⟩, hmem, rfl⟩
    obtain ⟨hin, hp⟩ := List.mem_filter.1 hmem
    exact ⟨v, (mem_iff_get? h).1 hin, hp⟩
  · rintro ⟨v, hv, hp⟩
    exact ⟨(k, v), List.mem_filter.2 ⟨mem_of_get? hv, hp⟩, rfl⟩

/-- The value of a name in a list whose pairs were changed or dropped one by one. -/
theorem get?_filterMap {f : String × α → Option (String × β)}
    (hf : ∀ p q, f p = some q → p.1 = q.1) {m : Keyed α} (h : Ascends m) (k : String) :
    get? (m.filterMap f) k = (get? m k).bind fun v => (f (k, v)).map Prod.snd := by
  induction m with
  | nil => rfl
  | cons p rest ih =>
    obtain ⟨n, v⟩ := p
    obtain ⟨hn, hrest⟩ := List.pairwise_cons.1 h
    rw [List.filterMap_cons, get?_cons]
    by_cases hk : k = n
    · subst hk
      have hnone : get? rest k = none := by
        rw [get?_eq_none_iff]
        intro hmem
        exact absurd (hn k hmem) (lt_irrefl k)
      rw [if_pos rfl, Option.bind_some]
      cases hp : f (k, v) with
      | none =>
        rw [ih hrest, hnone]
        rfl
      | some q =>
        obtain ⟨n, w⟩ := q
        cases hf _ _ hp
        simp only [get?_cons, if_pos, Option.map_some]
    · rw [if_neg hk, ← ih hrest]
      cases hp : f (n, v) with
      | none => rfl
      | some q =>
        obtain ⟨n', w⟩ := q
        cases hf _ _ hp
        simp only [get?_cons, if_neg hk]

/-! ## Lists with the same names -/

/-- Two lists have the same names, and a relation holds between the values of each. -/
def Related (R : α → β → Prop) (m : Keyed α) (m' : Keyed β) : Prop :=
  List.Forall₂ (fun p q => p.1 = q.1 ∧ R p.2 q.2) m m'

namespace Related

variable {R : α → β → Prop} {m : Keyed α} {m' : Keyed β}

theorem keys_eq (h : Related R m m') : keys m' = keys m := by
  induction h with
  | nil => rfl
  | cons hhead _ ih => rw [keys_cons, keys_cons, ih, hhead.1]

theorem ascends (h : Related R m m') (hm : Ascends m) : Ascends m' := hm.congr h.keys_eq

theorem get? (h : Related R m m') {k : String} {v : α} (hv : Keyed.get? m k = some v) :
    ∃ w, Keyed.get? m' k = some w ∧ R v w := by
  induction h with
  | nil => exact absurd hv nofun
  | @cons p q rest rest' hhead _ ih =>
    obtain ⟨n, u⟩ := p
    obtain ⟨n', u'⟩ := q
    obtain ⟨hname, hvalue⟩ := hhead
    cases hname
    rw [get?_cons] at hv ⊢
    by_cases hk : k = n
    · rw [if_pos hk] at hv ⊢
      cases hv
      exact ⟨u', rfl, hvalue⟩
    · rw [if_neg hk] at hv ⊢
      exact ih hv

theorem exists_of_mem (h : Related R m m') {k : String} {w : β} (hw : (k, w) ∈ m') :
    ∃ v, (k, v) ∈ m ∧ R v w := by
  induction h with
  | nil => exact absurd hw List.not_mem_nil
  | @cons p q rest rest' hhead _ ih =>
    obtain ⟨n, u⟩ := p
    obtain ⟨hname, hvalue⟩ := hhead
    rcases List.mem_cons.1 hw with rfl | hw
    · cases hname
      exact ⟨u, List.mem_cons_self, hvalue⟩
    · obtain ⟨v, hv, hvalue⟩ := ih hw
      exact ⟨v, List.mem_cons_of_mem _ hv, hvalue⟩

theorem imp {S : α → β → Prop} (h : Related R m m') (hRS : ∀ v w, R v w → S v w) :
    Related S m m' :=
  List.Forall₂.imp (fun _ _ hpq => ⟨hpq.1, hRS _ _ hpq.2⟩) h

/-- Two lists that are related to the same one. -/
theorem common {γ : Type} {S : α → γ → Prop} {m'' : Keyed γ} (h : Related R m m')
    (h' : Related S m m'') : Related (fun w u => ∃ v, R v w ∧ S v u) m' m'' := by
  induction h generalizing m'' with
  | nil =>
    cases h'
    exact .nil
  | cons hhead _ ih =>
    cases h' with
    | cons hhead' hrest' =>
      exact .cons ⟨hhead.1.symm.trans hhead'.1, _, hhead.2, hhead'.2⟩ (ih hrest')

theorem map {γ δ : Type} {S : γ → δ → Prop} {f : α → γ} {g : β → δ} (h : Related R m m')
    (hRS : ∀ v w, R v w → S (f v) (g w)) :
    Related S (m.map fun (k, v) => (k, f v)) (m'.map fun (k, w) => (k, g w)) := by
  unfold Related
  rw [List.forall₂_map_left_iff, List.forall₂_map_right_iff]
  exact List.Forall₂.imp (fun _ _ hpq => ⟨hpq.1, hRS _ _ hpq.2⟩) h

theorem namesWhere_eq {p : α → Bool} {q : β → Bool} (h : Related R m m')
    (hpq : ∀ v w, R v w → q w = p v) : namesWhere q m' = namesWhere p m := by
  unfold namesWhere
  induction h with
  | nil => rfl
  | cons hhead _ ih =>
    rw [List.filter_cons, List.filter_cons, hpq _ _ hhead.2]
    split
    · rw [List.map_cons, List.map_cons, ih, hhead.1]
    · exact ih

theorem ofMapM {f : α → Option β} (h : m.mapM (fun (k, v) => (f v).map (k, ·)) = some m') :
    Related (fun v w => f v = some w) m m' := by
  induction m generalizing m' with
  | nil =>
    cases Option.some.inj h
    exact .nil
  | cons p rest ih =>
    rw [List.mapM_cons] at h
    obtain ⟨q, hq, h⟩ := Option.bind_eq_some_iff.1 h
    obtain ⟨others, hothers, h⟩ := Option.bind_eq_some_iff.1 h
    cases Option.some.inj h
    obtain ⟨w, hw, rfl⟩ := Option.map_eq_some_iff.1 hq
    exact .cons ⟨rfl, hw⟩ (ih hothers)

end Related

/-- There is no list of changed values exactly when one value cannot be changed. -/
theorem mapM_eq_none_iff {f : α → Option β} {m : Keyed α} :
    (m.mapM fun p => (f p.2).map (p.1, ·)) = none ↔ ∃ k v, (k, v) ∈ m ∧ f v = none := by
  induction m with
  | nil => exact iff_of_false nofun (by rintro ⟨k, v, hmem, -⟩; exact absurd hmem List.not_mem_nil)
  | cons p rest ih =>
    obtain ⟨n, v⟩ := p
    rw [List.mapM_cons]
    cases hv : f v with
    | none => exact iff_of_true rfl ⟨n, v, List.mem_cons_self, hv⟩
    | some w =>
      have hrest : (do
          let others ← rest.mapM fun p => (f p.2).map (p.1, ·)
          pure ((n, w) :: others)) = none ↔ ∃ k v, (k, v) ∈ rest ∧ f v = none := by
        rw [← ih]
        cases rest.mapM fun p => (f p.2).map (p.1, ·) <;> simp
      refine hrest.trans ⟨?_, ?_⟩
      · rintro ⟨k, u, hmem, hu⟩
        exact ⟨k, u, List.mem_cons_of_mem _ hmem, hu⟩
      · rintro ⟨k, u, hmem, hu⟩
        rcases List.mem_cons.1 hmem with heq | hmem
        · cases heq
          rw [hv] at hu
          exact absurd hu nofun
        · exact ⟨k, u, hmem, hu⟩

theorem mapM_isSome {f : α → Option β} {m : Keyed α}
    (h : ∀ k v, (k, v) ∈ m → (f v).isSome) :
    (m.mapM fun p => (f p.2).map (p.1, ·)).isSome := by
  rw [← Option.ne_none_iff_isSome, Ne, mapM_eq_none_iff]
  rintro ⟨k, v, hmem, hv⟩
  have hsome := h k v hmem
  rw [hv] at hsome
  exact absurd hsome nofun

/-! ## Lists of pairs -/

@[simp] theorem ofList_nil : ofList ([] : List (String × α)) = [] := rfl

@[simp] theorem ofList_concat (xs : List (String × α)) (p : String × α) :
    ofList (xs ++ [p]) = insert p.1 p.2 (ofList xs) := by
  unfold ofList
  rw [List.foldl_append]
  rfl

theorem ascends_ofList (xs : List (String × α)) : Ascends (ofList xs) := by
  induction xs using List.reverseRecOn with
  | nil => exact List.Pairwise.nil
  | append_singleton xs p ih =>
    rw [ofList_concat]
    exact ih.insert p.1 p.2

theorem mem_keys_ofList {xs : List (String × α)} {k : String} :
    k ∈ keys (ofList xs) ↔ k ∈ xs.map Prod.fst := by
  induction xs using List.reverseRecOn with
  | nil => rfl
  | append_singleton xs p ih =>
    rw [ofList_concat, mem_keys_insert, ih, List.map_append, List.mem_append]
    exact or_comm.trans (or_congr_right List.mem_singleton.symm)

theorem insert_of_forall_lt {k : String} (v : α) {m : Keyed α} (h : ∀ n ∈ keys m, n < k) :
    insert k v m = m ++ [(k, v)] := by
  induction m with
  | nil => rfl
  | cons p rest ih =>
    obtain ⟨n, old⟩ := p
    have hn : n < k := h n List.mem_cons_self
    have hrest : ∀ n' ∈ keys rest, n' < k := fun n' hn' => h n' (List.mem_cons_of_mem n hn')
    unfold insert
    rw [if_neg (ne_of_gt hn), if_neg (not_lt_of_gt hn), ih hrest, List.cons_append]

/-- A list that is in order already stays as it is. -/
theorem ofList_of_ascends {m : Keyed α} (h : Ascends m) : ofList m = m := by
  induction m using List.reverseRecOn with
  | nil => rfl
  | append_singleton m p ih =>
    unfold Ascends keys at h
    rw [List.map_append, List.pairwise_append] at h
    obtain ⟨hm, -, hlt⟩ := h
    rw [ofList_concat, ih hm]
    exact insert_of_forall_lt p.2 fun n hn => hlt n hn p.1 (List.mem_singleton.2 rfl)

/-- The names of a list of pairs, whatever their values are. -/
theorem keys_ofList (xs : List (String × α)) : keys (ofList xs) = ascending (xs.map Prod.fst) := by
  unfold ascending
  induction xs using List.reverseRecOn with
  | nil => rfl
  | append_singleton xs p ih =>
    rw [ofList_concat, List.map_append, List.map_append, List.map_singleton, List.map_singleton,
      ofList_concat]
    exact keys_insert_congr p.1 p.2 () ih

theorem mem_of_get?_ofList {xs : List (String × α)} {k : String} {v : α}
    (h : get? (ofList xs) k = some v) : (k, v) ∈ xs := by
  induction xs using List.reverseRecOn with
  | nil => exact absurd h nofun
  | append_singleton xs p ih =>
    rw [ofList_concat, get?_insert] at h
    split at h
    · next hk =>
      rw [hk, ← Option.some.inj h]
      exact List.mem_append_right xs (List.mem_singleton.2 rfl)
    · exact List.mem_append_left [p] (ih h)

/-- The last pair for a name counts. -/
theorem get?_ofList (xs : List (String × α)) (k : String) :
    get? (ofList xs) k = (xs.filter (·.1 == k)).getLast?.map Prod.snd := by
  induction xs using List.reverseRecOn with
  | nil => rfl
  | append_singleton xs p ih =>
    rw [ofList_concat, get?_insert, ih, List.filter_append]
    by_cases h : p.1 = k
    · have hkept : [p].filter (·.1 == k) = [p] := List.filter_cons_of_pos (by simpa using h)
      rw [if_pos h.symm, hkept, List.getLast?_concat]
      rfl
    · have hleft : [p].filter (·.1 == k) = [] := List.filter_cons_of_neg (by simpa using h)
      rw [if_neg (Ne.symm h), hleft, List.append_nil]

theorem get?_ofList_map (names : List String) (f : String → α) (k : String) :
    get? (ofList (names.map fun n => (n, f n))) k = if k ∈ names then some (f k) else none := by
  induction names using List.reverseRecOn with
  | nil => rfl
  | append_singleton names n ih =>
    rw [List.map_append, List.map_singleton, ofList_concat, get?_insert, ih]
    by_cases h : k = n
    · simp [h]
    · simp [h]

end Keyed

/-! ## Names in ascending order -/

theorem mem_ascending {names : List String} {k : String} : k ∈ ascending names ↔ k ∈ names := by
  unfold ascending
  rw [Keyed.mem_keys_ofList, List.map_map]
  simp

theorem ascending_pairwise (names : List String) : (ascending names).Pairwise (· < ·) :=
  Keyed.ascends_ofList _

theorem Keyed.ascends_of_keys {α : Type} {m : Keyed α} {names : List String}
    (h : Keyed.keys m = ascending names) : Keyed.Ascends m := by
  unfold Ascends
  rw [h]
  exact ascending_pairwise names

theorem length_ascending_le (names : List String) : (ascending names).length ≤ names.length := by
  have hnodup : (ascending names).Nodup := (Keyed.ascends_ofList _).nodup
  exact hnodup.length_le_of_subset fun _ hk => mem_ascending.1 hk

end LidarSync
