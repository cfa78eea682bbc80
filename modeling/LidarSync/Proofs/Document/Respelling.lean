import LidarSync.Proofs.Document.Decoder
import Mathlib.Logic.Relation

/-!
# Documents that say the same in other words

A `Schema` says how the parts of a document are read: which objects are records, with which fields,
and which documents are no more than the default of a field. `Respelling` lists what can be changed in
a document without changing what is read off it: the order of members, members that nobody reads,
fields that are at their default, objects that become lists, and all of this anywhere inside. A decoder
`Follows` a schema if it reads the same off every respelling; `Follows.of_respellings` carries that over
to any number of changes. Here are the rules for values, lists and maps; the one for records is in
`LidarSync.Proofs.Document.RespelledRecords`.
-/

namespace LidarSync.Document

variable {α β : Type} {f : Format}

/-! ## Schemas -/

/-- A field of a record: its name, the documents that say the same as no document at all, and how its
own document is read. -/
structure Field (σ : Type) where
  name : String
  usual : Document → Prop
  content : σ

def Field.required {σ : Type} (name : String) (content : σ) : Field σ := ⟨name, fun _ => False, content⟩

def Field.defaulted {σ : Type} (f : Format) (name : String) (default : α) (d : Decoder α)
    (content : σ) : Field σ :=
  ⟨name, fun x => d f x = .ok default, content⟩

/-- How a document is read. -/
inductive Schema where
  /-- A text, a number, a truth value or a name. -/
  | value
  | list (item : Schema)
  /-- Something that may be `null` instead. -/
  | optional (content : Schema)
  /-- Values under names of any kind. -/
  | map
  | record (fields : List (Field Schema))

/-- The document that stands for a field in a list: its member of the object, or if it has none, one
that says the same as none. -/
inductive Field.Stands {σ : Type} (ms : List (String × Document)) (field : Field σ) : Document → Prop where
  | member {x : Document} (h : ms.lookup field.name = some x) : Stands ms field x
  | usual {x : Document} (habsent : ms.lookup field.name = none) (h : field.usual x) :
      Stands ms field x

/-- One change to how a document is written. -/
inductive Respelling : Schema → Document → Document → Prop where
  | reorder {fields : List (Field Schema)} {ms ms' : List (String × Document)} (h : ms.Perm ms') :
      Respelling (.record fields) (.record ms) (.record ms')
  /-- No object with several members is a value. -/
  | reorderValue {ms ms' : List (String × Document)} (h : ms.Perm ms') :
      Respelling .value (.record ms) (.record ms')
  /-- Members of one name keep their order. -/
  | reorderMap {ms ms' : List (String × Document)} (h : ms.Perm ms')
      (hsame : ∀ name, ms.filter (·.1 == name) = ms'.filter (·.1 == name)) :
      Respelling .map (.record ms) (.record ms')
  | addUnknown {fields : List (Field Schema)} {before after : List (String × Document)} {name : String}
      {x : Document} (h : ∀ field ∈ fields, field.name ≠ name) :
      Respelling (.record fields) (.record (before ++ after)) (.record (before ++ (name, x) :: after))
  | changeUnknown {fields : List (Field Schema)} {before after : List (String × Document)}
      {name : String} {x y : Document} (h : ∀ field ∈ fields, field.name ≠ name) :
      Respelling (.record fields) (.record (before ++ (name, x) :: after))
        (.record (before ++ (name, y) :: after))
  | leaveOut {fields : List (Field Schema)} {before after : List (String × Document)}
      {field : Field Schema} {x : Document} (hfield : field ∈ fields) (h : field.usual x) :
      Respelling (.record fields) (.record (before ++ (field.name, x) :: after))
        (.record (before ++ after))
  /-- The list has an element for each field, in the order of the fields, up to some that are at their
  default. -/
  | asList {fields rest : List (Field Schema)} {ms : List (String × Document)} {xs : List Document}
      (h : List.Forall₂ (Field.Stands ms) fields xs)
      (hrest : ∀ field ∈ rest, ∀ x, ms.lookup field.name = some x → field.usual x) :
      Respelling (.record (fields ++ rest)) (.record ms) (.list xs)
  | leaveOutLast {fields : List (Field Schema)} {field : Field Schema} {xs : List Document}
      {x : Document} (hfield : fields[xs.length]? = some field) (h : field.usual x) :
      Respelling (.record fields) (.list (xs ++ [x])) (.list xs)
  | member {fields : List (Field Schema)} {before after : List (String × Document)}
      {field : Field Schema} {x y : Document} (hfield : field ∈ fields)
      (h : Respelling field.content x y) :
      Respelling (.record fields) (.record (before ++ (field.name, x) :: after))
        (.record (before ++ (field.name, y) :: after))
  | element {fields : List (Field Schema)} {field : Field Schema} {before after : List Document}
      {x y : Document} (hfield : fields[before.length]? = some field)
      (h : Respelling field.content x y) :
      Respelling (.record fields) (.list (before ++ x :: after)) (.list (before ++ y :: after))
  | item {schema : Schema} {before after : List Document} {x y : Document} (h : Respelling schema x y) :
      Respelling (.list schema) (.list (before ++ x :: after)) (.list (before ++ y :: after))
  | content {schema : Schema} {x y : Document} (h : Respelling schema x y) :
      Respelling (.optional schema) x y

/-- A decoder reads the same off a document and off every respelling of it. -/
def Decoder.Follows (d : Decoder α) (f : Format) (schema : Schema) : Prop :=
  ∀ ⦃x y a⦄, Respelling schema x y → d f x = .ok a → d f y = .ok a

theorem Decoder.Follows.of_respellings {d : Decoder α} {schema : Schema} (hd : d.Follows f schema)
    {x y : Document} {a : α} (h : Relation.ReflTransGen (Respelling schema) x y)
    (hx : d f x = .ok a) : d f y = .ok a := by
  induction h with
  | refl => exact hx
  | tail _ hstep ih => exact hd hstep ih

/-! ## Values, lists and what may be missing -/

/-- Objects and lists alone can be respelled, and they remain objects and lists. -/
theorem Respelling.ne_null {schema : Schema} {x y : Document} (h : Respelling schema x y) :
    x ≠ .null ∧ y ≠ .null := by
  induction h with
  | content _ ih => exact ih
  | _ => exact ⟨nofun, nofun⟩

namespace Decoder

theorem follows_of_record_ne_ok {d : Decoder α} (h : ∀ ms a, d f (.record ms) ≠ .ok a) :
    d.Follows f .value := by
  intro x y a hxy hx
  cases hxy with
  | reorderValue _ => exact absurd hx (h _ a)

theorem text_follows : text.Follows f .value := follows_of_record_ne_ok fun _ _ => nofun

theorem boolean_follows : boolean.Follows f .value :=
  follows_of_record_ne_ok fun _ _ => nofun

theorem double_follows : double.Follows f .value :=
  follows_of_record_ne_ok fun _ _ => nofun

theorem natural_follows (w : Width) : (natural w).Follows f .value :=
  follows_of_record_ne_ok fun _ _ => nofun

/-- An object that names a choice has one member, which cannot come in another order. -/
theorem choice_follows (choices : List (String × α)) : (choice choices).Follows f .value := by
  intro x y a hxy hx
  cases hxy with
  | @reorderValue ms ms' hperm =>
    match ms, hperm with
    | [], _ => exact absurd hx (by cases f <;> exact nofun)
    | [m], hperm => rwa [List.perm_singleton.1 hperm.symm]
    | _ :: _ :: _, _ => exact absurd hx (by cases f <;> exact nofun)

theorem each_append {d : Decoder α} {xs ys : List Document} {as : List α} :
    each d f (xs ++ ys) = .ok as ↔
      ∃ bs cs, each d f xs = .ok bs ∧ each d f ys = .ok cs ∧ bs ++ cs = as := by
  induction xs generalizing as with
  | nil =>
    constructor
    · exact fun h => ⟨[], as, rfl, h, rfl⟩
    · rintro ⟨_, _, hnil, h, rfl⟩
      cases hnil
      exact h
  | cons x xs ih =>
    rw [List.cons_append, each, bind_eq_ok]
    constructor
    · rintro ⟨a, ha, hrest⟩
      obtain ⟨others, hothers, hdone⟩ := bind_eq_ok.1 hrest
      cases hdone
      obtain ⟨bs, cs, hbs, hcs, rfl⟩ := ih.1 hothers
      exact ⟨a :: bs, cs, bind_eq_ok.2 ⟨a, ha, bind_eq_ok.2 ⟨bs, hbs, rfl⟩⟩, hcs, rfl⟩
    · rintro ⟨bs, cs, hbs, hcs, rfl⟩
      obtain ⟨a, ha, hrest⟩ := bind_eq_ok.1 hbs
      obtain ⟨others, hothers, hdone⟩ := bind_eq_ok.1 hrest
      cases hdone
      exact ⟨a, ha, bind_eq_ok.2 ⟨others ++ cs, ih.2 ⟨others, cs, hothers, hcs, rfl⟩, rfl⟩⟩

theorem listOf_follows {d : Decoder α} {schema : Schema} (hd : d.Follows f schema) :
    (listOf d).Follows f (.list schema) := by
  intro x y as hxy hx
  cases hxy with
  | @item _ before after x y h =>
    obtain ⟨bs, cs, hbefore, hrest, rfl⟩ := each_append.1 hx
    obtain ⟨a, ha, hrest⟩ := bind_eq_ok.1 hrest
    refine each_append.2 ⟨bs, cs, hbefore, ?_, rfl⟩
    exact bind_eq_ok.2 ⟨a, hd h ha, hrest⟩

theorem optional_follows {d : Decoder α} {schema : Schema} (hd : d.Follows f schema) :
    d.optional.Follows f (.optional schema) := by
  have hread : ∀ {x : Document}, x ≠ .null → d.optional f x = (d f x).map some := by
    intro x hx
    unfold optional
    split
    · exact absurd rfl hx
    · rfl
  intro x y a hxy hx
  cases hxy with
  | content h =>
    rw [hread h.ne_null.1] at hx
    obtain ⟨b, hb, rfl⟩ := map_eq_ok.1 hx
    rw [hread h.ne_null.2]
    exact map_eq_ok.2 ⟨b, hd h hb, rfl⟩

/-! ## Maps -/

theorem eachValue_filter {d : Decoder α} {ms : List (String × Document)} {as : List (String × α)}
    (h : eachValue d f ms = .ok as) (name : String) :
    eachValue d f (ms.filter (·.1 == name)) = .ok (as.filter (·.1 == name)) := by
  induction ms generalizing as with
  | nil =>
    cases h
    rfl
  | cons m ms ih =>
    obtain ⟨a, ha, hrest⟩ := bind_eq_ok.1 h
    obtain ⟨others, hothers, hdone⟩ := bind_eq_ok.1 hrest
    cases hdone
    rw [List.filter_cons, List.filter_cons]
    by_cases hname : (m.1 == name) = true
    · rw [if_pos hname, if_pos hname]
      exact bind_eq_ok.2 ⟨a, ha, bind_eq_ok.2 ⟨_, ih hothers, rfl⟩⟩
    · rw [if_neg hname, if_neg hname]
      exact ih hothers

theorem exists_eachValue_iff {d : Decoder α} {ms : List (String × Document)} :
    (∃ as, eachValue d f ms = .ok as) ↔ ∀ m ∈ ms, ∃ a, d f m.2 = .ok a := by
  induction ms with
  | nil => exact iff_of_true ⟨[], rfl⟩ nofun
  | cons m ms ih =>
    rw [List.forall_mem_cons, ← ih]
    constructor
    · rintro ⟨as, h⟩
      obtain ⟨a, ha, hrest⟩ := bind_eq_ok.1 h
      obtain ⟨others, hothers, -⟩ := bind_eq_ok.1 hrest
      exact ⟨⟨a, ha⟩, others, hothers⟩
    · rintro ⟨⟨a, ha⟩, others, hothers⟩
      exact ⟨(m.1, a) :: others, bind_eq_ok.2 ⟨a, ha, bind_eq_ok.2 ⟨others, hothers, rfl⟩⟩⟩

theorem mapOf_follows (d : Decoder α) : (mapOf d).Follows f .map := by
  intro x y m hxy hx
  cases hxy with
  | @reorderMap ms ms' hperm hsame =>
    obtain ⟨as, has, rfl⟩ := map_eq_ok.1 hx
    have hall : ∀ m ∈ ms', ∃ a, d f m.2 = .ok a := fun m hm =>
      exists_eachValue_iff.1 ⟨as, has⟩ m (hperm.mem_iff.2 hm)
    obtain ⟨as', has'⟩ := exists_eachValue_iff.2 hall
    refine map_eq_ok.2 ⟨as', has', Eq.symm ?_⟩
    refine Keyed.Ascends.eq_of_get? (Keyed.ascends_ofList as) (Keyed.ascends_ofList as') fun k => ?_
    have hk := eachValue_filter has k
    have hk' := eachValue_filter has' k
    rw [hsame, hk'] at hk
    rw [Keyed.get?_ofList, Keyed.get?_ofList, Except.ok.inj hk]

end Decoder

end LidarSync.Document
