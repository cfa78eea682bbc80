import LidarSync.Proofs.Blueprint.Valid
import LidarSync.Proofs.Disk
import LidarSync.Proofs.Keyed
import LidarSync.Sink.Archive
import Mathlib.Data.List.Nodup

/-!
# What an archive keeps

An archive stores the record of each round and the clouds that are present in it. The names that
lead from the archive to a file end in the number of its round and in what the file is
(`Archive.EndsIn`), so no round stores a file where another has stored one, and no cloud is stored
where a record is. Within a round, clouds lie apart by the segments of their topics. Segments that
are empty or dots are left out, so different topics can have the same (`Archive.SharesDirectory`),
and then the later of them overwrites the earlier.

`Archive.Keeps` is what is promised: for each cloud a file of its own, for each round a record, and
in the record the topics that have files. `Archive.keeps_iff` says that this is so exactly when no
topic that is present shares its directory with another topic, and what is in the files in any case.
-/

namespace LidarSync

theorem Cloud.pointsOf_plyBody {c : Cloud} {ps : List Point} (h : c.points = .ok ps) :
    Cloud.pointsOf c.plyBody = ps := by
  unfold Cloud.points at h
  split at h
  · unfold Cloud.extent at h
    split at h
    · exact absurd h nofun
    · exact Except.ok.inj h
  · exact absurd h nofun

/-! ## Storing files -/

/-- The path under which a file is stored. -/
def Filing.path (f : Filing) : String := Disk.join f.directory f.name

namespace Disk

variable {d d' e : Disk} {f : Filing} {fs : List Filing}

theorem store_eq_ok (h : d.store f = (.ok (), d')) : ∃ place, d'.resolve f.path = .ok place ∧
    d.Grows d' ∧ ∀ q, d'.file? q = if q = place then some f.bytes else d.file? q := by
  have hmade := d.makeAll_prepares f.directory
  unfold store at h
  split at h
  · exact absurd h nofun
  · next d₁ hdirectory =>
    rw [hdirectory] at hmade
    split at h
    · next d₂ hwrite =>
      cases h
      obtain ⟨place, hplace, hgrows, hfiles⟩ := write_eq_ok hwrite
      refine ⟨place, hplace, hmade.grows.trans hgrows, fun q => ?_⟩
      rw [hfiles, hmade.file?_eq]
    · exact absurd h nofun

/-- The last of several files that is stored at a place. -/
def lastAt (placeOf : Filing → List String) (q : List String) (fs : List Filing) : Option Filing :=
  fs.reverse.find? fun f => placeOf f = q

theorem lastAt_append (placeOf : Filing → List String) (q : List String) (xs ys : List Filing) :
    lastAt placeOf q (xs ++ ys) = (lastAt placeOf q ys).or (lastAt placeOf q xs) := by
  unfold lastAt
  rw [List.reverse_append, List.find?_append]

theorem lastAt_eq_none {placeOf : Filing → List String} {q : List String}
    (h : ∀ f ∈ fs, placeOf f ≠ q) : lastAt placeOf q fs = none := by
  unfold lastAt
  rw [List.find?_eq_none]
  intro f hf
  rw [decide_eq_true_eq]
  exact h f (List.mem_reverse.1 hf)

/-- After files have been stored, each place has the last file that was stored there. -/
theorem storeAll_eq_ok {placeOf : Filing → List String}
    (hplaceOf : ∀ e, d.Grows e → ∀ f ∈ fs, ∀ q, e.resolve f.path = .ok q → q = placeOf f)
    (h : storeAll fs d = (.ok (), d')) : d.Grows d' ∧
      (∀ f ∈ fs, d'.resolve f.path = .ok (placeOf f)) ∧
      ∀ q, d'.file? q = ((lastAt placeOf q fs).map Filing.bytes).or (d.file? q) := by
  induction fs generalizing d with
  | nil =>
    cases h
    exact ⟨.refl _, nofun, fun q => rfl⟩
  | cons f rest ih =>
    unfold storeAll at h
    split at h
    · next d₁ hstore =>
      obtain ⟨place, hplace, hgrows, hfiles⟩ := store_eq_ok hstore
      have hf := hplaceOf d₁ hgrows f List.mem_cons_self place hplace
      obtain ⟨hgrows', hplaces, hlast⟩ := ih
        (fun e he g hg => hplaceOf e (hgrows.trans he) g (List.mem_cons_of_mem f hg)) h
      refine ⟨hgrows.trans hgrows', ?_, fun q => ?_⟩
      · rw [List.forall_mem_cons, ← hf]
        exact ⟨resolve_mono hgrows' hplace, hplaces⟩
      · rw [hlast, hfiles, hf, ← List.singleton_append, lastAt_append]
        cases lastAt placeOf q rest with
        | some g => rfl
        | none =>
          by_cases hq : q = placeOf f
          · simp [lastAt, hq]
          · simp [lastAt, hq, Ne.symm hq]
    · exact absurd h nofun

theorem storeAll_append (xs ys : List Filing) (d : Disk) : storeAll (xs ++ ys) d
    = match storeAll xs d with
      | (.ok (), d) => storeAll ys d
      | (.error e, d) => (.error e, d) := by
  induction xs generalizing d with
  | nil => rfl
  | cons x xs ih =>
    rw [List.cons_append, storeAll, storeAll]
    split
    · exact ih _
    · rfl

end Disk

/-! ## Names -/

open Disk (IsName components)

theorem not_mem_toList_repr {c : Char} (hc : c.isDigit = false) (n : Nat) :
    c ∉ n.repr.toList := by
  rw [Nat.toList_repr]
  intro hmem
  rw [Nat.isDigit_of_mem_toDigits (by decide) (by decide) hmem] at hc
  exact absurd hc nofun

/-- What starts with the number of a round is a name. -/
theorem isName_repr_append (n : Nat) {ending : String} (hending : '/' ∉ ending.toList) :
    IsName (n.repr ++ ending) := by
  have hslash : '/' ∉ n.repr.toList := not_mem_toList_repr (by decide) n
  have hdot : '.' ∉ n.repr.toList := not_mem_toList_repr (by decide) n
  have hdigits : n.repr.toList ≠ [] := by
    rw [Nat.toList_repr]
    exact Nat.toDigits_ne_nil
  obtain ⟨digit, digits, hcons⟩ := List.exists_cons_of_ne_nil hdigits
  rw [hcons, List.mem_cons, not_or] at hdot
  have hfirst : ∀ rest : List Char, (n.repr ++ ending).toList ≠ '.' :: rest := by
    intro rest heq
    rw [String.toList_append, hcons] at heq
    exact hdot.1 (List.cons.inj heq).1.symm
  constructor
  · rw [String.toList_append, List.mem_append, not_or]
    exact ⟨hslash, hending⟩
  · rw [Ne, ← String.toList_inj, String.toList_append, hcons]
    nofun
  · exact fun heq => hfirst [] (congrArg String.toList heq)
  · exact fun heq => hfirst ['.'] (congrArg String.toList heq)

theorem isName_of_mem_topicSegments {t name : String} (h : name ∈ topicSegments t) :
    IsName name := by
  obtain ⟨hmem, hkept⟩ := List.mem_filter.1 h
  simp only [Bool.and_eq_true, decide_eq_true_eq] at hkept
  obtain ⟨⟨hempty, hdot⟩, hback⟩ := hkept
  exact ⟨Text.not_mem_of_mem_segments hmem, hempty, hdot, hback⟩

namespace Archive

variable {a : Archive} {s s' : SyncedSet} {t t' : Topic} {c c' : Cloud} {f : Filing}

/-! ## Where files are stored -/

/-- The path of the record of a round. -/
def recordPath (a : Archive) (s : SyncedSet) : String := (a.recordFiling s).path

/-- The path of the cloud of a topic in a round. -/
def cloudPath (a : Archive) (s : SyncedSet) (t : Topic) : String :=
  Disk.join (Disk.join a.base ("/".intercalate (topicSegments t.synchronized)))
    s!"{s.roundId}.ply"

/-- The names that lead from the directory of an archive to the record of a round. -/
def recordNames (s : SyncedSet) : List String := ["meta", s.roundId.repr ++ ".json"]

/-- The names that lead from there to the cloud of a topic. -/
def cloudNames (s : SyncedSet) (t : Topic) : List String :=
  topicSegments t.synchronized ++ [s.roundId.repr ++ ".ply"]

theorem isName_recordNames (s : SyncedSet) : ∀ name ∈ recordNames s, IsName name := by
  simp only [recordNames, List.forall_mem_cons]
  exact ⟨⟨by decide, by decide, by decide, by decide⟩,
    isName_repr_append s.roundId (by decide), nofun⟩

theorem isName_cloudNames (s : SyncedSet) (t : Topic) : ∀ name ∈ cloudNames s t, IsName name := by
  simp only [cloudNames, List.forall_mem_append, List.forall_mem_singleton]
  exact ⟨fun name h => isName_of_mem_topicSegments h, isName_repr_append s.roundId (by decide)⟩

theorem components_recordPath (a : Archive) (s : SyncedSet) :
    components (a.recordPath s) = components a.base ++ recordNames s := by
  have hname : components s!"{s.roundId}.json" = [s.roundId.repr ++ ".json"] :=
    Disk.components_of_isName (isName_repr_append s.roundId (by decide))
  have hmeta : components "meta" = ["meta"] := by rfl
  unfold recordPath Filing.path recordFiling
  rw [Disk.components_join, Disk.components_join, hname, hmeta, List.append_assoc]
  rfl

theorem components_cloudPath (a : Archive) (s : SyncedSet) (t : Topic) :
    components (a.cloudPath s t) = components a.base ++ cloudNames s t := by
  have hname : components s!"{s.roundId}.ply" = [s.roundId.repr ++ ".ply"] :=
    Disk.components_of_isName (isName_repr_append s.roundId (by decide))
  have hsegments : components ("/".intercalate (topicSegments t.synchronized))
      = topicSegments t.synchronized :=
    Disk.components_intercalate fun name h => isName_of_mem_topicSegments h
  unfold cloudPath
  rw [Disk.components_join, Disk.components_join, hname, hsegments, List.append_assoc]
  rfl

/-- The names that lead from the directory of an archive to a file. -/
def namesOf (a : Archive) (f : Filing) : List String :=
  (components f.path).drop (components a.base).length

theorem namesOf_recordFiling (a : Archive) (s : SyncedSet) :
    a.namesOf (a.recordFiling s) = recordNames s := by
  unfold namesOf
  rw [← recordPath, components_recordPath, List.drop_left]

theorem namesOf_cloudFiling (a : Archive) (s : SyncedSet) (t : Topic) (c : Cloud) :
    a.namesOf (a.cloudFiling s t.synchronized c) = cloudNames s t := by
  have hpath : (a.cloudFiling s t.synchronized c).path = a.cloudPath s t := rfl
  unfold namesOf
  rw [hpath, components_cloudPath, List.drop_left]

theorem mem_filings : f ∈ a.filings s ↔
    f = a.recordFiling s ∨ ∃ t c, (t, c) ∈ s.present ∧ f = a.cloudFiling s t.synchronized c := by
  unfold filings SyncedSet.published
  rw [List.mem_cons, List.map_map, List.mem_map]
  refine or_congr_right ⟨?_, ?_⟩
  · rintro ⟨⟨t, c⟩, hmem, rfl⟩
    exact ⟨t, c, hmem, rfl⟩
  · rintro ⟨t, c, hmem, rfl⟩
    exact ⟨⟨t, c⟩, hmem, rfl⟩

theorem components_of_mem_filings (h : f ∈ a.filings s) :
    components f.path = components a.base ++ a.namesOf f ∧
      ∀ name ∈ a.namesOf f, IsName name := by
  obtain rfl | ⟨t, c, -, rfl⟩ := mem_filings.1 h
  · rw [namesOf_recordFiling]
    exact ⟨a.components_recordPath s, isName_recordNames s⟩
  · rw [namesOf_cloudFiling]
    exact ⟨a.components_cloudPath s t, isName_cloudNames s t⟩

/-! ## Files of different rounds -/

/-- Names that end in the file of a round. -/
def EndsIn (n : Nat) (names : List String) : Prop :=
  names.getLast? = some (n.repr ++ ".json") ∨ names.getLast? = some (n.repr ++ ".ply")

theorem repr_append_inj {n m : Nat} {ending : String} (h : n.repr ++ ending = m.repr ++ ending) :
    n = m := by
  rw [← String.toList_inj, String.toList_append, String.toList_append, Nat.toList_repr,
    Nat.toList_repr] at h
  calc n = Nat.ofDigitChars 10 (Nat.toDigits 10 n) 0 := Nat.ofDigitChars_ten_toDigits.symm
    _ = Nat.ofDigitChars 10 (Nat.toDigits 10 m) 0 := by rw [List.append_cancel_right h]
    _ = m := Nat.ofDigitChars_ten_toDigits

theorem json_ne_ply (n m : Nat) : n.repr ++ ".json" ≠ m.repr ++ ".ply" := by
  intro heq
  have hlast := congrArg (fun s => s.toList.getLast?) heq
  simp only [String.toList_append, List.getLast?_append] at hlast
  exact absurd (Option.some.inj hlast) (by decide)

theorem EndsIn.inj {n m : Nat} {names : List String} (hn : EndsIn n names) (hm : EndsIn m names) :
    n = m := by
  rcases hn with hn | hn
  · rcases hm with hm | hm
    · exact repr_append_inj (Option.some.inj (hn.symm.trans hm))
    · exact absurd (Option.some.inj (hn.symm.trans hm)) (json_ne_ply n m)
  · rcases hm with hm | hm
    · exact absurd (Option.some.inj (hm.symm.trans hn)) (json_ne_ply m n)
    · exact repr_append_inj (Option.some.inj (hn.symm.trans hm))

theorem endsIn_recordNames (s : SyncedSet) : EndsIn s.roundId (recordNames s) := Or.inl rfl

theorem endsIn_cloudNames (s : SyncedSet) (t : Topic) : EndsIn s.roundId (cloudNames s t) :=
  Or.inr List.getLast?_concat

theorem endsIn_of_mem_filings (h : f ∈ a.filings s) : EndsIn s.roundId (a.namesOf f) := by
  obtain rfl | ⟨t, c, -, rfl⟩ := mem_filings.1 h
  · rw [namesOf_recordFiling]
    exact endsIn_recordNames s
  · rw [namesOf_cloudFiling]
    exact endsIn_cloudNames s t

/-- Only the files of a round are stored under its number. -/
theorem lastAt_rounds {sets : List SyncedSet} {names : List String}
    (hids : (sets.map (·.roundId)).Nodup) (hs : s ∈ sets) (hnames : EndsIn s.roundId names) :
    Disk.lastAt a.namesOf names (sets.flatMap a.filings)
      = Disk.lastAt a.namesOf names (a.filings s) := by
  have hother (s' : SyncedSet) (hne : s'.roundId ≠ s.roundId) :
      ∀ f ∈ a.filings s', a.namesOf f ≠ names := by
    rintro f hf rfl
    exact hne ((endsIn_of_mem_filings hf).inj hnames)
  induction sets with
  | nil => exact absurd hs List.not_mem_nil
  | cons x rest ih =>
    obtain ⟨hfresh, hrest⟩ := List.nodup_cons.1 hids
    rw [List.flatMap_cons, Disk.lastAt_append]
    rcases List.mem_cons.1 hs with rfl | hs
    · have hnone : Disk.lastAt a.namesOf names (rest.flatMap a.filings) = none := by
        apply Disk.lastAt_eq_none
        intro f hf
        obtain ⟨s', hs', hf⟩ := List.mem_flatMap.1 hf
        exact hother s' (fun heq => hfresh (List.mem_map.2 ⟨s', hs', heq⟩)) f hf
      rw [hnone, Option.none_or]
    · have hnone : Disk.lastAt a.namesOf names (a.filings x) = none :=
        Disk.lastAt_eq_none (hother x fun heq => hfresh (List.mem_map.2 ⟨s, hs, heq.symm⟩))
      rw [hnone, Option.or_none, ih hrest hs]

/-! ## Files of one round -/

theorem recordNames_ne_cloudNames (s s' : SyncedSet) (t : Topic) :
    recordNames s ≠ cloudNames s' t := by
  intro heq
  have hlast := congrArg List.getLast? heq
  rw [cloudNames, List.getLast?_concat] at hlast
  exact json_ne_ply _ _ (Option.some.inj hlast)

theorem cloudNames_inj : cloudNames s t = cloudNames s' t' ↔
    s.roundId = s'.roundId ∧ topicSegments t.synchronized = topicSegments t'.synchronized := by
  unfold cloudNames
  constructor
  · intro heq
    obtain ⟨hsegments, hname⟩ := List.append_inj' heq rfl
    exact ⟨repr_append_inj (List.singleton_inj.1 hname), hsegments⟩
  · rintro ⟨hid, hsegments⟩
    rw [hid, hsegments]

theorem lastAt_record (a : Archive) (s : SyncedSet) :
    Disk.lastAt a.namesOf (recordNames s) (a.filings s) = some (a.recordFiling s) := by
  unfold filings
  rw [← List.singleton_append, Disk.lastAt_append, Disk.lastAt_eq_none, Option.none_or]
  · simp [Disk.lastAt, namesOf_recordFiling]
  · intro f hf
    unfold SyncedSet.published at hf
    rw [List.map_map] at hf
    obtain ⟨⟨t, c⟩, -, rfl⟩ := List.mem_map.1 hf
    change a.namesOf (a.cloudFiling s t.synchronized c) ≠ _
    rw [namesOf_cloudFiling]
    exact (recordNames_ne_cloudNames s s t).symm

/-- Whether two topics have their clouds stored in the same directory. -/
def SharesDirectory (t t' : Topic) : Prop :=
  topicSegments t.synchronized = topicSegments t'.synchronized

instance (t t' : Topic) : Decidable (SharesDirectory t t') :=
  inferInstanceAs (Decidable (topicSegments t.synchronized = topicSegments t'.synchronized))

/-- The last topic of a round that has its cloud stored in the directory of a topic, with the
cloud. -/
def lastBeside (s : SyncedSet) (t : Topic) : Option (Topic × Cloud) :=
  s.present.reverse.find? fun p => SharesDirectory p.1 t

theorem lastAt_cloud (a : Archive) (s : SyncedSet) (t : Topic) :
    Disk.lastAt a.namesOf (cloudNames s t) (a.filings s)
      = (lastBeside s t).map fun p => a.cloudFiling s p.1.synchronized p.2 := by
  have hrecord : Disk.lastAt a.namesOf (cloudNames s t) [a.recordFiling s] = none := by
    apply Disk.lastAt_eq_none
    simp only [List.forall_mem_singleton, namesOf_recordFiling]
    exact recordNames_ne_cloudNames s s t
  unfold filings
  rw [← List.singleton_append, Disk.lastAt_append, hrecord, Option.or_none]
  unfold Disk.lastAt lastBeside SyncedSet.published
  rw [List.map_map, ← List.map_reverse, List.find?_map]
  congr 2
  funext p
  simp only [Function.comp, namesOf_cloudFiling, cloudNames_inj, true_and]
  rfl

theorem mem_present : (t, c) ∈ s.present ↔ (t, some c) ∈ s.clouds := by
  unfold SyncedSet.present
  rw [List.mem_filterMap]
  constructor
  · rintro ⟨⟨t', o⟩, hmem, ho⟩
    obtain ⟨c', rfl, heq⟩ := Option.map_eq_some_iff.1 ho
    obtain ⟨rfl, rfl⟩ := Prod.mk.inj heq
    exact hmem
  · intro hmem
    exact ⟨_, hmem, rfl⟩

theorem mem_of_lastBeside {p : Topic × Cloud} (h : lastBeside s t = some p) :
    p ∈ s.present ∧ SharesDirectory p.1 t := by
  unfold lastBeside at h
  exact ⟨List.mem_reverse.1 (List.mem_of_find?_eq_some h), by simpa using List.find?_some h⟩

theorem exists_lastBeside (h : (t, c) ∈ s.present) : ∃ p, lastBeside s t = some p := by
  rw [← Option.isSome_iff_exists]
  unfold lastBeside
  rw [List.find?_isSome]
  exact ⟨(t, c), List.mem_reverse.2 h, decide_eq_true rfl⟩

theorem cloudPath_congr (a : Archive) (s : SyncedSet) (h : SharesDirectory t t') :
    a.cloudPath s t = a.cloudPath s t' := by
  unfold cloudPath
  rw [h]

/-! ## Rounds -/

/-- Stores rounds in order up to the first that cannot be stored. -/
def storeEach (a : Archive) : List SyncedSet → Disk → Except DiskFault Unit × Disk
  | [], d => (.ok (), d)
  | s :: rest, d =>
    match a.store s d with
    | (.ok (), d) => storeEach a rest d
    | (.error e, d) => (.error e, d)

theorem storeEach_eq (a : Archive) (sets : List SyncedSet) (d : Disk) :
    a.storeEach sets d = Disk.storeAll (sets.flatMap a.filings) d := by
  induction sets generalizing d with
  | nil => rfl
  | cons s rest ih =>
    unfold storeEach store
    rw [List.flatMap_cons, Disk.storeAll_append]
    split
    · exact ih _
    · rfl

/-- The directory of an archive is there, and nothing is in it. -/
def Fresh (a : Archive) (d : Disk) : Prop :=
  ∃ place, d.follow [] (components a.base) = .ok place ∧ d.node? place = some .directory ∧
    ∀ names ≠ [], d.node? (place ++ names) = none

/-- Where a path into an archive leads. -/
theorem place_of_resolve {d e : Disk} {place names q : List String} {path : String}
    (hbase : d.follow [] (components a.base) = .ok place) (hgrows : d.Grows e)
    (hpath : components path = components a.base ++ names) (hnames : ∀ name ∈ names, IsName name)
    (h : e.resolve path = .ok q) : q = place ++ names := by
  have hfollow := Disk.follow_of_resolve h
  rw [hpath, Disk.follow_append, Disk.follow_mono hgrows hbase] at hfollow
  exact Disk.follow_names hnames hfollow

section Rounds

variable {sets : List SyncedSet} {d d' : Disk} {bytes : List UInt8}

/-- What is at the places of an archive after rounds have been stored in it. -/
theorem exists_place (hfresh : a.Fresh d) (hids : (sets.map (·.roundId)).Nodup)
    (hstored : a.storeEach sets d = (.ok (), d')) : ∃ place,
      (∀ s ∈ sets, ∀ f ∈ a.filings s, d'.resolve f.path = .ok (place ++ a.namesOf f)) ∧
      (∀ s ∈ sets, ∀ t q, d'.resolve (a.cloudPath s t) = .ok q → q = place ++ cloudNames s t) ∧
      ∀ s ∈ sets, ∀ names, EndsIn s.roundId names → d'.file? (place ++ names)
        = (Disk.lastAt a.namesOf names (a.filings s)).map Filing.bytes := by
  obtain ⟨place, hbase, -, hempty⟩ := hfresh
  rw [storeEach_eq] at hstored
  have hplaceOf : ∀ e, d.Grows e → ∀ f ∈ sets.flatMap a.filings, ∀ q, e.resolve f.path = .ok q →
      q = place ++ a.namesOf f := by
    intro e hgrows f hf q hq
    obtain ⟨s, -, hf⟩ := List.mem_flatMap.1 hf
    obtain ⟨hpath, hnames⟩ := components_of_mem_filings hf
    exact place_of_resolve hbase hgrows hpath hnames hq
  obtain ⟨hgrows, hplaces, hfiles⟩ := Disk.storeAll_eq_ok hplaceOf hstored
  refine ⟨place, fun s hs f hf => hplaces f (List.mem_flatMap.2 ⟨s, hs, hf⟩), ?_, ?_⟩
  · intro s _ t q hq
    exact place_of_resolve hbase hgrows (a.components_cloudPath s t) (isName_cloudNames s t) hq
  · intro s hs names hnames
    have hne : names ≠ [] := by
      rintro rfl
      exact absurd hnames nofun
    have hold : d.file? (place ++ names) = none := by
      unfold Disk.file?
      rw [hempty names hne]
    have hnamed : Disk.lastAt (fun f => place ++ a.namesOf f) (place ++ names)
        (sets.flatMap a.filings) = Disk.lastAt a.namesOf names (sets.flatMap a.filings) := by
      unfold Disk.lastAt
      simp only [List.append_cancel_left_eq]
    rw [hfiles, hold, Option.or_none, hnamed, lastAt_rounds hids hs hnames]

theorem read_recordPath (hfresh : a.Fresh d) (hids : (sets.map (·.roundId)).Nodup)
    (hstored : a.storeEach sets d = (.ok (), d')) (hs : s ∈ sets) :
    d'.read (a.recordPath s) = .ok s.archiveRecord.compact.toUTF8.toList := by
  obtain ⟨place, hplaces, -, hfiles⟩ := exists_place hfresh hids hstored
  have hdirectory : Disk.namesDirectory (a.recordPath s) = false :=
    Disk.namesDirectory_join _ (isName_repr_append s.roundId (by decide))
  have hplace := hplaces s hs (a.recordFiling s) (mem_filings.2 (Or.inl rfl))
  rw [namesOf_recordFiling] at hplace
  refine (Disk.read_eq_ok_iff hdirectory).2 ⟨_, hplace, ?_⟩
  rw [hfiles s hs _ (endsIn_recordNames s), lastAt_record]
  rfl

/-- In the file of a topic is the last cloud of its round that was stored in that directory. -/
theorem read_cloudPath (hfresh : a.Fresh d) (hids : (sets.map (·.roundId)).Nodup)
    (hstored : a.storeEach sets d = (.ok (), d')) (hs : s ∈ sets) :
    d'.read (a.cloudPath s t) = .ok bytes ↔
      ∃ p, lastBeside s t = some p ∧ p.2.ply = bytes := by
  obtain ⟨place, hplaces, hcloud, hfiles⟩ := exists_place hfresh hids hstored
  have hdirectory : Disk.namesDirectory (a.cloudPath s t) = false :=
    Disk.namesDirectory_join _ (isName_repr_append s.roundId (by decide))
  have hfile : d'.file? (place ++ cloudNames s t) = (lastBeside s t).map fun p => p.2.ply := by
    rw [hfiles s hs _ (endsIn_cloudNames s t), lastAt_cloud, Option.map_map]
    rfl
  rw [Disk.read_eq_ok_iff hdirectory]
  constructor
  · rintro ⟨q, hq, hbytes⟩
    rw [hcloud s hs t q hq, hfile] at hbytes
    exact Option.map_eq_some_iff.1 hbytes
  · rintro ⟨p, hp, hbytes⟩
    obtain ⟨hmem, hshares⟩ := mem_of_lastBeside hp
    have hplace := hplaces s hs _ (mem_filings.2 (Or.inr ⟨p.1, p.2, hmem, rfl⟩))
    have hpath : (a.cloudFiling s p.1.synchronized p.2).path = a.cloudPath s t :=
      a.cloudPath_congr s hshares
    rw [hpath] at hplace
    refine ⟨_, hplace, ?_⟩
    rw [hcloud s hs t _ hplace, hfile, hp, ← hbytes]
    rfl

/-! ## What is promised -/

/-- What is promised of an archive that rounds over some topics have been stored in. -/
structure Keeps (a : Archive) (topics : List Topic) (sets : List SyncedSet) (d : Disk) :
    Prop where
  /-- Each cloud is in the file of its topic and round. -/
  clouds : ∀ s ∈ sets, ∀ t c, (t, c) ∈ s.present → d.read (a.cloudPath s t) = .ok c.ply
  /-- After the header, such a file holds the points of the cloud. -/
  points : ∀ s ∈ sets, ∀ t c ps, (t, c) ∈ s.present → c.points = .ok ps → ∃ body,
    d.read (a.cloudPath s t) = .ok (c.plyHeader.toUTF8.toList ++ body) ∧ Cloud.pointsOf body = ps
  /-- No two clouds have the same file. -/
  own : ∀ s ∈ sets, ∀ s' ∈ sets, ∀ t c t' c' q, (t, c) ∈ s.present → (t', c') ∈ s'.present →
    d.resolve (a.cloudPath s t) = .ok q → d.resolve (a.cloudPath s' t') = .ok q → s = s' ∧ t = t'
  /-- Each round has its record. -/
  records : ∀ s ∈ sets,
    d.read (a.recordPath s) = .ok s.archiveRecord.compact.toUTF8.toList
  /-- The output topics that a record lists are those that there is a file for. -/
  listed : ∀ s ∈ sets, ∀ t ∈ topics, t.synchronized ∈ s.published.map Prod.fst ↔
    ∃ bytes, d.read (a.cloudPath s t) = .ok bytes

theorem mem_published : t.synchronized ∈ s.published.map Prod.fst ↔ ∃ c, (t, c) ∈ s.present := by
  unfold SyncedSet.published
  rw [List.map_map, List.mem_map]
  constructor
  · rintro ⟨⟨t', c⟩, hmem, heq⟩
    have htopics : t' = t := by
      have hlist := congrArg String.toList heq
      simp only [Function.comp, Topic.synchronized, String.toList_append] at hlist
      exact String.toList_inj.1 (List.append_cancel_right hlist)
    exact ⟨c, htopics ▸ hmem⟩
  · rintro ⟨c, hmem⟩
    exact ⟨(t, c), hmem, rfl⟩

theorem eq_of_mem_present (hs : Keyed.Ascends s.clouds) (h : (t, c) ∈ s.present)
    (h' : (t, c') ∈ s.present) : c = c' := by
  have hc := (Keyed.mem_iff_get? hs).1 (mem_present.1 h)
  have hc' := (Keyed.mem_iff_get? hs).1 (mem_present.1 h')
  exact Option.some.inj (Option.some.inj (hc.symm.trans hc'))

theorem mem_topics_of_mem_present {topics : List Topic}
    (hover : ∀ t ∈ Keyed.keys s.clouds, t ∈ topics) (h : (t, c) ∈ s.present) : t ∈ topics :=
  hover t (List.mem_map.2 ⟨_, mem_present.1 h, rfl⟩)

/-- An archive that keeps what is promised has no topic present that shares its directory with
another topic. -/
theorem Keeps.eq_of_sharesDirectory {topics : List Topic} (h : a.Keeps topics sets d')
    (hs : s ∈ sets) (hmem : (t, c) ∈ s.present) (ht' : t' ∈ topics) (hshares : SharesDirectory t t') :
    t = t' := by
  have hread := h.clouds s hs t c hmem
  have hread' : d'.read (a.cloudPath s t') = .ok c.ply := a.cloudPath_congr s hshares ▸ hread
  obtain ⟨c', hmem'⟩ := mem_published.1 ((h.listed s hs t' ht').2 ⟨c.ply, hread'⟩)
  unfold Disk.read at hread hread'
  obtain ⟨q, hq, -⟩ := bind_eq_ok.1 hread
  exact (h.own s hs s hs t c t' c' q hmem hmem' hq (a.cloudPath_congr s hshares ▸ hq)).2

/-- Where no topic that is present shares its directory with another topic, an archive keeps what is
promised. -/
theorem keeps_of_separate {topics : List Topic} (hfresh : a.Fresh d)
    (hids : (sets.map (·.roundId)).Nodup)
    (hsets : ∀ s ∈ sets, Keyed.Ascends s.clouds ∧ ∀ t ∈ Keyed.keys s.clouds, t ∈ topics)
    (hstored : a.storeEach sets d = (.ok (), d'))
    (hseparate : ∀ s ∈ sets, ∀ t c, (t, c) ∈ s.present → ∀ t' ∈ topics,
      SharesDirectory t t' → t = t') : a.Keeps topics sets d' := by
  have hclouds : ∀ s ∈ sets, ∀ t c, (t, c) ∈ s.present →
      d'.read (a.cloudPath s t) = .ok c.ply := by
    intro s hs t c hmem
    obtain ⟨⟨t', c'⟩, hlast⟩ := exists_lastBeside hmem
    obtain ⟨hmem', hshares⟩ := mem_of_lastBeside hlast
    have ht := mem_topics_of_mem_present (hsets s hs).2 hmem
    obtain rfl : t' = t := hseparate s hs t' c' hmem' t ht hshares
    obtain rfl := eq_of_mem_present (hsets s hs).1 hmem hmem'
    exact (read_cloudPath hfresh hids hstored hs).2 ⟨_, hlast, rfl⟩
  refine {
    clouds := hclouds
    points := fun s hs t c ps hmem hps =>
      ⟨c.plyBody, hclouds s hs t c hmem, Cloud.pointsOf_plyBody hps⟩
    own := ?_
    records := fun s hs => read_recordPath hfresh hids hstored hs
    listed := ?_ }
  · intro s hs s' hs' t c t' c' q hmem hmem' hq hq'
    obtain ⟨place, -, hplace, -⟩ := exists_place hfresh hids hstored
    have hnames : cloudNames s t = cloudNames s' t' :=
      List.append_cancel_left ((hplace s hs t q hq).symm.trans (hplace s' hs' t' q hq'))
    obtain ⟨hid, hshares⟩ := cloudNames_inj.1 hnames
    have ht' := mem_topics_of_mem_present (hsets s' hs').2 hmem'
    exact ⟨List.inj_on_of_nodup_map hids hs hs' hid, hseparate s hs t c hmem t' ht' hshares⟩
  · intro s hs t ht
    rw [mem_published]
    constructor
    · rintro ⟨c, hmem⟩
      exact ⟨c.ply, hclouds s hs t c hmem⟩
    · rintro ⟨bytes, hread⟩
      obtain ⟨⟨t', c⟩, hlast, -⟩ := (read_cloudPath hfresh hids hstored hs).1 hread
      obtain ⟨hmem, hshares⟩ := mem_of_lastBeside hlast
      exact ⟨c, hseparate s hs t' c hmem t ht hshares ▸ hmem⟩

/-- After rounds with different numbers have been stored in a fresh archive, it keeps what is
promised exactly when no topic that is present in a round shares its directory with another topic.
In any case each round has its record, and in the file of a topic that is present is the last cloud
of the same round that was stored in this directory. -/
theorem keeps_iff {topics : List Topic} (hfresh : a.Fresh d)
    (hids : (sets.map (·.roundId)).Nodup)
    (hsets : ∀ s ∈ sets, Keyed.Ascends s.clouds ∧ ∀ t ∈ Keyed.keys s.clouds, t ∈ topics)
    (hstored : a.storeEach sets d = (.ok (), d')) :
    (a.Keeps topics sets d' ↔ ∀ s ∈ sets, ∀ t c, (t, c) ∈ s.present → ∀ t' ∈ topics,
      SharesDirectory t t' → t = t') ∧
    (∀ s ∈ sets, d'.read (a.recordPath s) = .ok s.archiveRecord.compact.toUTF8.toList) ∧
    ∀ s ∈ sets, ∀ t c, (t, c) ∈ s.present → ∃ t' c', lastBeside s t = some (t', c') ∧
      (t', c') ∈ s.present ∧ SharesDirectory t' t ∧ d'.read (a.cloudPath s t) = .ok c'.ply := by
  refine ⟨⟨?_, keeps_of_separate hfresh hids hsets hstored⟩, ?_, ?_⟩
  · intro h s hs t c hmem t' ht' hshares
    exact h.eq_of_sharesDirectory hs hmem ht' hshares
  · exact fun s hs => read_recordPath hfresh hids hstored hs
  · intro s hs t c hmem
    obtain ⟨⟨t', c'⟩, hlast⟩ := exists_lastBeside hmem
    obtain ⟨hmem', hshares⟩ := mem_of_lastBeside hlast
    exact ⟨t', c', hlast, hmem', hshares,
      (read_cloudPath hfresh hids hstored hs).2 ⟨_, hlast, rfl⟩⟩

end Rounds

/-! ## Two lidars -/

/-- A round with an empty cloud on one topic and a cloud of one point on another. -/
def twins (n : Nat) (t t' : Topic) : SyncedSet where
  roundId := n
  reference := some 0
  frame := "base_link"
  clouds := [(t, some (.ofPoints 0 "base_link" [])),
    (t', some (.ofPoints 0 "base_link" [⟨.zero, .zero, .zero, .zero⟩]))]
  details := {
    trigger := .complete
    missing := []
    failed := []
    corrections := []
    processingMs := 0
    cycleMs := 0
    diagnostics := .ofMissing [t, t'] [] }

theorem twins_over (n : Nat) (h : t < t') : Keyed.Ascends (twins n t t').clouds ∧
    ∀ u ∈ Keyed.keys (twins n t t').clouds, u ∈ [t, t'] :=
  ⟨List.pairwise_pair.2 h, fun _ hu => hu⟩

/-- A disk on which an archive has been set up, and nothing else. -/
def bare : Disk := (setUp ⟨"out"⟩ Disk.empty).2

theorem fresh_bare : Fresh ⟨"out"⟩ bare := by
  refine ⟨["out"], by rfl, by rfl, fun names hnames => ?_⟩
  have hnodes : bare.nodes = [(["out"], .directory)] := by rfl
  unfold Disk.node?
  simp [hnodes, hnames]

theorem stored_of_toBool {sets : List SyncedSet} {d : Disk}
    (h : (a.storeEach sets d).1.toBool = true) :
    a.storeEach sets d = (.ok (), (a.storeEach sets d).2) := by
  generalize a.storeEach sets d = outcome at h ⊢
  obtain ⟨result, d'⟩ := outcome
  cases result with
  | ok => rfl
  | error e => exact absurd h nofun

/-- Two rounds of a left and a right lidar are kept. -/
theorem keeps_iff_twins : ∃ d', storeEach ⟨"out"⟩ [twins 0 "/left" "/right",
      twins 1 "/left" "/right"] bare = (.ok (), d') ∧
    Keeps ⟨"out"⟩ ["/left", "/right"] [twins 0 "/left" "/right", twins 1 "/left" "/right"] d' := by
  have hstored := stored_of_toBool (by decide +kernel : (storeEach ⟨"out"⟩
    [twins 0 "/left" "/right", twins 1 "/left" "/right"] bare).1.toBool = true)
  have hover : ∀ s ∈ [twins 0 "/left" "/right", twins 1 "/left" "/right"],
      Keyed.Ascends s.clouds ∧ ∀ t ∈ Keyed.keys s.clouds, t ∈ ["/left", "/right"] := by
    simp only [List.forall_mem_cons]
    exact ⟨twins_over 0 (by decide), twins_over 1 (by decide), nofun⟩
  have hseparate : ∀ t ∈ ["/left", "/right"], ∀ t' ∈ ["/left", "/right"],
      SharesDirectory t t' → t = t' := by decide
  refine ⟨_, hstored, (keeps_iff fresh_bare (by decide) hover hstored).1.2 ?_⟩
  intro s hs t c hmem t' ht'
  exact hseparate t (mem_topics_of_mem_present (hover s hs).2 hmem) t' ht'

/-- Two topics are accepted of which one has a leading slash. A round that both are present in is
stored without a fault, but the cloud of the topic with the slash is overwritten. -/
theorem twins_overwritten :
    { SyncSettings.pair with inputTopics := ["/lidar", "lidar"] }.validate = .ok () ∧
    Fresh ⟨"out"⟩ bare ∧ ∃ d' c c',
      storeEach ⟨"out"⟩ [twins 0 "/lidar" "lidar"] bare = (.ok (), d') ∧
      (twins 0 "/lidar" "lidar").present = [("/lidar", c), ("lidar", c')] ∧ c.ply ≠ c'.ply ∧
      d'.read (cloudPath ⟨"out"⟩ (twins 0 "/lidar" "lidar") "/lidar") = .ok c'.ply ∧
      ¬ Keeps ⟨"out"⟩ ["/lidar", "lidar"] [twins 0 "/lidar" "lidar"] d' := by
  have hstored := stored_of_toBool (by decide +kernel :
    (storeEach ⟨"out"⟩ [twins 0 "/lidar" "lidar"] bare).1.toBool = true)
  have hlast : lastBeside (twins 0 "/lidar" "lidar") "/lidar"
      = some ("lidar", .ofPoints 0 "base_link" [⟨.zero, .zero, .zero, .zero⟩]) := by rfl
  refine ⟨by rfl, fresh_bare, _, _, _, hstored, rfl, by decide +kernel, ?_, fun hkeeps => ?_⟩
  · exact (read_cloudPath fresh_bare (by decide) hstored (List.mem_singleton_self _)).2
      ⟨_, hlast, rfl⟩
  · exact absurd (hkeeps.eq_of_sharesDirectory (List.mem_singleton_self _) List.mem_cons_self
      (by decide : "lidar" ∈ ["/lidar", "lidar"]) (by decide : SharesDirectory "/lidar" "lidar"))
      (by decide)

end Archive

end LidarSync
