import LidarSync.Proofs.Sink.Archive

/-!
# Nothing is stored outside an archive

Where a path leads is decided by its components: a name leads down, two dots lead back. The directory of
a topic is made of names, and because of what an output topic ends in there is always one
(`topicSegments_ne_nil`). So the way from an archive to a file of a round goes down at every step
(`Archive.isBelow_destination`), and storing a file changes at most the one that its path leads to
(`Disk.file?_store`). Whatever topics are named, no round changes a file outside the archive
(`Archive.confined`).
-/

namespace LidarSync

/-! ## What storing changes -/

namespace Disk

variable {d d' : Disk} {place q : List String}

/-- A place lies strictly below another one. -/
def IsBelow (place q : List String) : Prop := ∃ names, names ≠ [] ∧ q = place ++ names

/-- Storing a file changes at most the file that its path leads to. -/
theorem file?_store (d : Disk) (f : Filing) (hq : q ≠ destination [] (components f.path)) :
    (d.store f).2.file? q = d.file? q := by
  have hmade := d.makeAll_prepares f.directory
  unfold store
  split
  · next hfault =>
    rw [hfault] at hmade
    exact hmade.file?_eq q
  · next d₁ hdirectory =>
    rw [hdirectory] at hmade
    split
    · next d₂ hwrite =>
      obtain ⟨place, hplace, -, hfiles⟩ := write_eq_ok hwrite
      have hdestination := eq_destination_of_follow (follow_of_resolve hplace)
      rw [hfiles, if_neg (hdestination ▸ hq)]
      exact hmade.file?_eq q
    · exact hmade.file?_eq q

theorem file?_storeAll {fs : List Filing} (d : Disk)
    (hq : ∀ f ∈ fs, q ≠ destination [] (components f.path)) :
    (storeAll fs d).2.file? q = d.file? q := by
  induction fs generalizing d with
  | nil => rfl
  | cons f rest ih =>
    rw [List.forall_mem_cons] at hq
    have hfirst := d.file?_store f hq.1
    unfold storeAll
    split
    · next hstored =>
      rw [hstored] at hfirst
      rw [ih _ hq.2, hfirst]
    · next hfault =>
      rw [hfault] at hfirst
      exact hfirst

end Disk

/-! ## The directories of topics -/

/-- What is put behind a text is put behind its last segment. -/
theorem Text.exists_mem_cut_append {separator : Char} {ending : List Char} (h : separator ∉ ending)
    (cs : List Char) : ∃ front, front ++ ending ∈ cut separator (cs ++ ending) := by
  induction cs with
  | nil => exact ⟨[], by rw [List.nil_append, cut_eq_singleton h]; exact List.mem_singleton_self _⟩
  | cons c cs ih =>
    obtain ⟨front, hfront⟩ := ih
    by_cases hc : c = separator
    · subst hc
      rw [List.cons_append, cut_cons_self]
      exact ⟨front, List.mem_cons_of_mem _ hfront⟩
    · obtain ⟨part, others, hcut, hcons⟩ := cut_cons_of_ne hc (cs ++ ending)
      rw [hcut, List.mem_cons] at hfront
      rw [List.cons_append, hcons]
      rcases hfront with rfl | hfront
      · exact ⟨c :: front, List.mem_cons_self⟩
      · exact ⟨front, List.mem_cons_of_mem _ hfront⟩

/-- An output topic has a segment that is neither empty nor dots, since its ending is part of one. -/
theorem topicSegments_ne_nil (t : Topic) : topicSegments t.synchronized ≠ [] := by
  have hslash : '/' ∉ Topic.suffix.toList := by decide
  obtain ⟨front, hfront⟩ := Text.exists_mem_cut_append hslash t.toList
  have hscore : '_' ∈ front ++ Topic.suffix.toList := List.mem_append_right front (by decide)
  have hsegment : String.ofList (front ++ Topic.suffix.toList) ∈ Text.segments t.synchronized := by
    unfold Text.segments Topic.synchronized
    rw [String.toList_append]
    exact List.mem_map_of_mem hfront
  have hkept (part : String) (hpart : '_' ∉ part.toList) :
      String.ofList (front ++ Topic.suffix.toList) ≠ part := by
    rintro rfl
    rw [String.toList_ofList] at hpart
    exact hpart hscore
  refine List.ne_nil_of_mem (List.mem_filter.2 ⟨hsegment, ?_⟩)
  simp only [Bool.and_eq_true, decide_eq_true_eq]
  exact ⟨⟨hkept "" (by decide), hkept "." (by decide)⟩, hkept ".." (by decide)⟩

/-- Names put together with slashes do not start with one. -/
theorem head?_intercalate_ne {names : List String} (hnames : ∀ name ∈ names, Disk.IsName name) :
    ("/".intercalate names).toList.head? ≠ some '/' := by
  cases names with
  | nil => decide
  | cons name rest =>
    have hname := hnames name List.mem_cons_self
    have hchars : name.toList ≠ [] := fun h => hname.ne_empty (String.toList_eq_nil_iff.1 h)
    obtain ⟨c, cs, hcs⟩ := List.exists_cons_of_ne_nil hchars
    have hc : c ≠ '/' := by
      rintro rfl
      exact hname.unslashed (hcs ▸ List.mem_cons_self)
    have hhead : ("/".intercalate (name :: rest)).toList.head? = some c := by
      cases rest with
      | nil => rw [String.intercalate_singleton, hcs, List.head?_cons]
      | cons other rest =>
        rw [String.intercalate_cons_cons, String.toList_append, String.toList_append, hcs]
        rfl
    rw [hhead]
    exact fun heq => hc (Option.some.inj heq)

namespace Archive

open Disk (components destination IsBelow)

variable {a : Archive} {s : SyncedSet} {names start : List String} {f : Filing}

/-! ## The way into an archive -/

/-- Names lead down from wherever the path of an archive leads. -/
theorem isBelow_destination (hnames : ∀ name ∈ names, Disk.IsName name) (hne : names ≠ []) :
    IsBelow (destination start (components a.base)) (destination start (components a.base ++ names)) :=
  ⟨names, hne, by rw [Disk.destination_append, Disk.destination_names hnames]⟩

theorem isBelow_of_mem_filings (h : f ∈ a.filings s) :
    IsBelow (destination start (components a.base)) (destination start (components f.path)) := by
  obtain ⟨hpath, hnames⟩ := components_of_mem_filings h
  have hne : a.namesOf f ≠ [] := by
    intro hnil
    have hlast := endsIn_of_mem_filings h
    rw [hnil] at hlast
    exact absurd hlast nofun
  rw [hpath]
  exact isBelow_destination hnames hne

/-- The directory of a topic is a relative path that is not empty, and its components are the segments
of the output topic that are neither empty nor dots, in their order. So from wherever the path of the
archive leads, each step on the way to a cloud leads to a place strictly below it; and storing a round,
whether or not it ends in a fault, changes no file that does not lie strictly below it. -/
theorem confined (a : Archive) (s : SyncedSet) (t : Topic) (c : Cloud) :
    let f := a.cloudFiling s t.synchronized c
    let directory := "/".intercalate (topicSegments t.synchronized)
    (f.directory = Disk.join a.base directory ∧ directory ≠ "" ∧
      directory.toList.head? ≠ some '/' ∧ components directory
        = (Text.segments t.synchronized).filter fun part => part ≠ "" && part ≠ "." && part ≠ "..") ∧
    components f.path = components a.base ++ (components directory ++ [s!"{s.roundId}.ply"]) ∧
    (∀ start front, front ≠ [] → front <+: components directory ++ [s!"{s.roundId}.ply"] →
      IsBelow (destination start (components a.base))
        (destination start (components a.base ++ front))) ∧
    ∀ (d : Disk) (q : List String), (a.store s d).2.file? q ≠ d.file? q →
      IsBelow (destination [] (components a.base)) q := by
  intro f directory
  have hsegments : ∀ name ∈ topicSegments t.synchronized, Disk.IsName name :=
    fun name => isName_of_mem_topicSegments
  have hcomponents : components directory = topicSegments t.synchronized :=
    Disk.components_intercalate hsegments
  refine ⟨⟨rfl, ?_, head?_intercalate_ne hsegments, hcomponents⟩, ?_, ?_, ?_⟩
  · intro hempty
    rw [hempty, Disk.components_empty] at hcomponents
    exact topicSegments_ne_nil t hcomponents.symm
  · rw [hcomponents]
    exact a.components_cloudPath s t
  · intro start front hne hfront
    rw [hcomponents] at hfront
    exact isBelow_destination (fun name h => isName_cloudNames s t name (hfront.subset h)) hne
  · intro d q hchanged
    by_contra houtside
    refine hchanged (d.file?_storeAll fun g hg heq => houtside ?_)
    rw [heq]
    exact isBelow_of_mem_filings hg

/-- A topic that steps back and starts anew has its clouds below the archive all the same. -/
example : topicSegments (Topic.synchronized "/../../etc/./..")
    = ["etc", ".._synchronized"] := by decide +kernel

end Archive

end LidarSync
