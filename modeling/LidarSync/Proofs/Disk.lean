import LidarSync.Disk
import LidarSync.Proofs.Outcome
import Mathlib.Tactic.Common

/-!
# What the operations on a disk do

A path leads through its components (`Disk.components_join`, `Disk.follow_append`). Where it leads they
alone decide (`Disk.destination`), a disk only adds faults, and names lead to the place that they name
(`Disk.follow_names`). `Disk.file?` is the view: the bytes of the file
at a place. Directories stay directories whatever is made or written (`Disk.Grows`), so a path goes on
leading where it led (`Disk.resolve_mono`). Making directories does nothing to files
(`Disk.makeAll_prepares`), and writing a file changes the one at its place and no other
(`Disk.write_eq_ok`).
-/

namespace LidarSync

/-! ## Segments -/

namespace Text

theorem segments_of_not_mem {s : String} (h : '/' ∉ s.toList) : segments s = [s] := by
  unfold segments
  rw [cut_eq_singleton h, List.map_singleton, String.ofList_toList]

theorem not_mem_of_mem_segments {s part : String} (h : part ∈ segments s) : '/' ∉ part.toList := by
  obtain ⟨cs, hcs, rfl⟩ := List.mem_map.1 h
  rw [String.toList_ofList]
  exact not_mem_of_mem_cut hcs

end Text

namespace Disk

/-! ## Components -/

/-- A name that leads from a directory to something in it. -/
structure IsName (name : String) : Prop where
  unslashed : '/' ∉ name.toList
  ne_empty : name ≠ ""
  ne_dot : name ≠ "."
  ne_back : name ≠ ".."

theorem components_append (base path : String) :
    components (base ++ "/" ++ path) = components base ++ components path := by
  unfold components
  rw [Text.segments_append, List.filter_append]

theorem components_empty : components "" = [] := by rfl

/-- Joining adds a slash where there is none. -/
theorem join_cases (base path : String) :
    base = "" ∧ join base path = path ∨
      ∃ front, components base = components front ∧ join base path = front ++ "/" ++ path := by
  unfold join
  split
  · next hempty => exact Or.inl ⟨String.isEmpty_iff.1 hempty, rfl⟩
  · split
    · next hslash =>
      obtain ⟨cs, hcs⟩ := List.getLast?_eq_some_iff.1 hslash
      have hbase : base = String.ofList cs ++ "/" ++ "" := by
        rw [← String.toList_inj]
        simp [hcs]
      refine Or.inr ⟨String.ofList cs, ?_, ?_⟩
      · rw [hbase, components_append, components_empty, List.append_nil]
      · rw [← String.toList_inj]
        simp [hcs]
    · exact Or.inr ⟨base, rfl, rfl⟩

theorem components_join (base path : String) :
    components (join base path) = components base ++ components path := by
  obtain ⟨rfl, hjoin⟩ | ⟨front, hbase, hjoin⟩ := join_cases base path
  · rw [hjoin, components_empty, List.nil_append]
  · rw [hjoin, hbase, components_append]

theorem namesDirectory_join (base : String) {name : String} (h : IsName name) :
    namesDirectory (join base name) = false := by
  have hlast : (Text.segments (join base name)).getLast? = some name := by
    obtain ⟨-, hjoin⟩ | ⟨front, -, hjoin⟩ := join_cases base name
    · rw [hjoin, Text.segments_of_not_mem h.unslashed, List.getLast?_singleton]
    · rw [hjoin, Text.segments_append, Text.segments_of_not_mem h.unslashed,
        List.getLast?_append, List.getLast?_singleton, Option.some_or]
  unfold namesDirectory
  rw [hlast]
  split
  · next heq => exact absurd (Option.some.inj heq) h.ne_empty
  · next heq => exact absurd (Option.some.inj heq) h.ne_dot
  · rfl

theorem components_of_isName {name : String} (h : IsName name) : components name = [name] := by
  unfold components
  rw [Text.segments_of_not_mem h.unslashed]
  simp [h.ne_empty, h.ne_dot]

theorem components_intercalate {names : List String} (h : ∀ name ∈ names, IsName name) :
    components ("/".intercalate names) = names := by
  induction names with
  | nil => exact components_empty
  | cons a rest ih =>
    rw [List.forall_mem_cons] at h
    cases rest with
    | nil => exact components_of_isName h.1
    | cons b rest =>
      rw [String.intercalate_cons_cons, components_append, components_of_isName h.1, ih h.2]
      rfl

/-! ## Where paths lead -/

variable {d d' d'' : Disk} {place q : List String} {path : String} {bytes : List UInt8}

theorem follow_append (d : Disk) (place xs ys : List String) :
    d.follow place (xs ++ ys) = (do d.follow (← d.follow place xs) ys) := by
  induction xs generalizing place with
  | nil => rfl
  | cons x xs ih =>
    rw [List.cons_append, follow, follow]
    cases d.node? place with
    | none => rfl
    | some node =>
      cases node with
      | file bytes => rfl
      | directory =>
        dsimp only
        split
        · rfl
        · split
          · exact ih _
          · exact ih _

/-- Where components lead from a place, whatever is there. -/
def destination (place : List String) : List String → List String
  | [] => place
  | name :: rest =>
    if name = ".." then destination place.dropLast rest else destination (place ++ [name]) rest

theorem destination_append (place xs ys : List String) :
    destination place (xs ++ ys) = destination (destination place xs) ys := by
  induction xs generalizing place with
  | nil => rfl
  | cons x xs ih =>
    rw [List.cons_append, destination, destination]
    split
    · exact ih _
    · exact ih _

theorem destination_names {names : List String} (hnames : ∀ name ∈ names, IsName name) :
    destination place names = place ++ names := by
  induction names generalizing place with
  | nil => exact (List.append_nil _).symm
  | cons name rest ih =>
    rw [List.forall_mem_cons] at hnames
    rw [destination, if_neg hnames.1.ne_back, ih hnames.2, List.append_assoc]
    rfl

/-- Components that a disk follows lead where they lead without it. -/
theorem eq_destination_of_follow {names : List String} (h : d.follow place names = .ok q) :
    q = destination place names := by
  induction names generalizing place with
  | nil =>
    cases h
    rfl
  | cons name rest ih =>
    unfold follow at h
    unfold destination
    split at h
    · exact absurd h nofun
    · exact absurd h nofun
    · split at h
      · exact absurd h nofun
      · split at h
        · next hback => rw [if_pos hback]; exact ih h
        · next hon => rw [if_neg hon]; exact ih h

/-- Names lead to the place that they name. -/
theorem follow_names {names : List String} (hnames : ∀ name ∈ names, IsName name)
    (h : d.follow place names = .ok q) : q = place ++ names :=
  (eq_destination_of_follow h).trans (destination_names hnames)

theorem follow_of_resolve (h : d.resolve path = .ok q) : d.follow [] (components path) = .ok q := by
  unfold resolve at h
  split at h
  · exact absurd h nofun
  · split at h
    · exact absurd h nofun
    · split at h
      · exact absurd h nofun
      · exact h

/-- Directories stay directories. -/
def Grows (d d' : Disk) : Prop :=
  ∀ q, d.node? q = some .directory → d'.node? q = some .directory

theorem Grows.refl (d : Disk) : d.Grows d := fun _ => id

theorem Grows.trans (h : d.Grows d') (h' : d'.Grows d'') : d.Grows d'' := fun q hq => h' q (h q hq)

theorem follow_mono (hgrows : d.Grows d') {names : List String}
    (h : d.follow place names = .ok q) : d'.follow place names = .ok q := by
  induction names generalizing place with
  | nil => exact h
  | cons name rest ih =>
    unfold follow at h ⊢
    split at h
    · exact absurd h nofun
    · exact absurd h nofun
    · next hdirectory =>
      rw [hgrows place hdirectory]
      dsimp only
      split at h
      · exact absurd h nofun
      · next hshort =>
        rw [if_neg hshort]
        split at h
        · next hback => rw [if_pos hback]; exact ih h
        · next hon => rw [if_neg hon]; exact ih h

theorem resolve_mono (hgrows : d.Grows d') (h : d.resolve path = .ok q) :
    d'.resolve path = .ok q := by
  unfold resolve at h ⊢
  split at h
  · exact absurd h nofun
  · next hnul =>
    rw [if_neg hnul]
    split at h
    · exact absurd h nofun
    · next hempty =>
      rw [if_neg hempty]
      split at h
      · exact absurd h nofun
      · next hshort =>
        rw [if_neg hshort]
        exact follow_mono hgrows h

/-! ## Files -/

/-- The bytes of the file at a place. -/
def file? (d : Disk) (place : List String) : Option (List UInt8) :=
  match d.node? place with
  | some (.file bytes) => some bytes
  | _ => none

theorem file?_eq_some_iff : d.file? q = some bytes ↔ d.node? q = some (.file bytes) := by
  unfold file?
  split
  · next hnode => simp [hnode]
  · next hnot => exact iff_of_false nofun (hnot bytes)

theorem lookup_filter_ne {α : Type} (nodes : List (List String × α)) (hne : q ≠ place) :
    (nodes.filter (·.1 ≠ place)).lookup q = nodes.lookup q := by
  induction nodes with
  | nil => rfl
  | cons p rest ih =>
    obtain ⟨k, n⟩ := p
    by_cases hk : k = place
    · subst hk
      rw [List.filter_cons_of_neg (by simp), ih, List.lookup_cons, beq_eq_false_iff_ne.2 hne]
    · rw [List.filter_cons_of_pos (by simpa using hk), List.lookup_cons, List.lookup_cons, ih]

theorem node?_put {n : DiskNode} (hplace : place ≠ []) (q : List String) :
    (d.put place n).node? q = if q = place then some n else d.node? q := by
  unfold node? put
  by_cases hq : q = place
  · subst hq
    simp [hplace]
  · rw [if_neg hq, List.lookup_cons, lookup_filter_ne _ hq, beq_eq_false_iff_ne.2 hq]

theorem file?_put {n : DiskNode} (hplace : place ≠ []) (q : List String) :
    (d.put place n).file? q
      = if q = place then (match n with | .file bytes => some bytes | .directory => none)
        else d.file? q := by
  unfold file?
  rw [node?_put hplace]
  by_cases hq : q = place
  · rw [if_pos hq, if_pos hq]
    cases n <;> rfl
  · rw [if_neg hq, if_neg hq]

/-- Making directories: they stay, and files are as they were. -/
structure Prepares (d d' : Disk) : Prop where
  grows : d.Grows d'
  file?_eq : ∀ q, d'.file? q = d.file? q

namespace Prepares

theorem refl (d : Disk) : d.Prepares d := ⟨.refl d, fun _ => rfl⟩

theorem trans (h : d.Prepares d') (h' : d'.Prepares d'') : d.Prepares d'' :=
  ⟨h.grows.trans h'.grows, fun q => (h'.file?_eq q).trans (h.file?_eq q)⟩

end Prepares

theorem ne_nil_of_node? (h : d.node? place ≠ some .directory) : place ≠ [] := by
  rintro rfl
  exact h rfl

theorem makeDirectory_prepares (h : d.makeDirectory path = .ok d') : d.Prepares d' := by
  unfold makeDirectory at h
  obtain ⟨place, -, h⟩ := bind_eq_ok.1 h
  split at h
  · exact absurd h nofun
  · exact absurd h nofun
  · next hnone =>
    split at h
    · exact absurd h nofun
    · cases h
      have hplace : place ≠ [] := ne_nil_of_node? (by rw [hnone]; nofun)
      refine ⟨fun q hq => ?_, fun q => ?_⟩
      · rw [node?_put hplace]
        split
        · rfl
        · exact hq
      · rw [file?_put hplace]
        split
        · next heq => rw [heq, file?, hnone]
        · rfl

theorem makeWithin_prepares (d : Disk) (paths : List String) :
    d.Prepares (d.makeWithin paths).2 := by
  induction paths generalizing d with
  | nil => exact .refl d
  | cons path outer ih =>
    unfold makeWithin
    dsimp only
    split
    · next hmade => exact makeDirectory_prepares hmade
    · have houter := ih d
      split
      · next hwithin =>
        rw [hwithin] at houter
        exact houter
      · next hwithin =>
        rw [hwithin] at houter
        split
        · next hmade => exact houter.trans (makeDirectory_prepares hmade)
        · exact houter
    · exact .refl d

theorem makeAll_prepares (d : Disk) (path : String) : d.Prepares (d.makeAll path).2 :=
  d.makeWithin_prepares (withParents path)

/-- A file that is written is the one at its place, and no other file changes. -/
theorem write_eq_ok (h : d.write path bytes = .ok d') : ∃ place, d'.resolve path = .ok place ∧
    d.Grows d' ∧ ∀ q, d'.file? q = if q = place then some bytes else d.file? q := by
  unfold write at h
  obtain ⟨place, hplace, h⟩ := bind_eq_ok.1 h
  have hwritten : d.node? place ≠ some .directory ∧ d' = d.put place (.file bytes) := by
    split at h
    · exact absurd h nofun
    · next hnode =>
      cases h
      exact ⟨by rw [hnode]; nofun, rfl⟩
    · next hnode =>
      cases h
      exact ⟨by rw [hnode]; nofun, rfl⟩
  obtain ⟨hnode, rfl⟩ := hwritten
  have hne := ne_nil_of_node? hnode
  have hgrows : d.Grows (d.put place (.file bytes)) := by
    intro q hq
    rw [node?_put hne, if_neg]
    · exact hq
    · rintro rfl
      exact hnode hq
  exact ⟨place, resolve_mono hgrows hplace, hgrows, file?_put hne⟩

/-- What is read from a path that leads somewhere and does not name a directory. -/
theorem read_eq_ok_iff (hpath : namesDirectory path = false) :
    d.read path = .ok bytes ↔ ∃ place, d.resolve path = .ok place ∧ d.file? place = some bytes := by
  unfold read
  simp only [bind_eq_ok, file?_eq_some_iff]
  refine exists_congr fun place => and_congr_right fun _ => ?_
  split
  · next hnode => simp [hnode]
  · next hnode => simp [hnode]
  · next hnode => simp [hnode, hpath]

end Disk

end LidarSync
