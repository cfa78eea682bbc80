import Mathlib.Data.List.Forall2
import LidarSync.Proofs.Blueprint.Valid
import LidarSync.Sink.Dispatcher

/-!
# Opening the sinks of a blueprint

The plans of a valid blueprint can only fail in setting up what a sink writes to
(`Dispatcher.setup_of_ofPlans`). Where they do not fail there is one sink for each of them, in the
order of the plans, with an empty feed and nobody to wait for (`SinkLine.opens_of_ofPlans`).
-/

namespace LidarSync

/-- Whether a sink waits for nobody else. -/
def Outlet.isPrompt : Outlet → Bool
  | .channel _ => false
  | _ => true

namespace SinkLine

variable {p : SinkPlan} {plans : List SinkPlan} {used : List String} {d : Disk} {f : DispatchFault}

theorem setup_of_ofPlan (hcapacity : p.capacity ≠ 0) (h : (ofPlan p d).1 = .error f) :
    ∃ fault, f = .setup p.name fault := by
  rw [ofPlan, if_neg hcapacity] at h
  cases hkind : p.kind with
  | log =>
    rw [hkind] at h
    exact absurd h nofun
  | file =>
    rw [hkind] at h
    dsimp only at h
    split at h
    · exact absurd h nofun
    · exact ⟨_, (Except.error.inj h).symm⟩

/-- What a plan that does not fail opens. -/
structure Opens (p : SinkPlan) (l : SinkLine) : Prop where
  feed_eq : l.feed = .ofCapacity p.name p.capacity
  prompt : l.outlet.isPrompt = true

theorem opens_of_ofPlan {l : SinkLine} (h : (ofPlan p d).1 = .ok l) : Opens p l := by
  by_cases hcapacity : p.capacity = 0
  · rw [ofPlan, if_pos hcapacity] at h
    exact absurd h nofun
  · rw [ofPlan, if_neg hcapacity] at h
    cases hkind : p.kind with
    | log =>
      rw [hkind] at h
      rw [← Except.ok.inj h]
      exact ⟨rfl, rfl⟩
    | file =>
      rw [hkind] at h
      dsimp only at h
      split at h
      · rw [← Except.ok.inj h]
        exact ⟨rfl, rfl⟩
      · exact absurd h nofun

/-- What comes of a list of plans whose first name is not in use. -/
theorem ofPlans_cons (plans : List SinkPlan) (d : Disk) (hfresh : p.name ∉ used) :
    (∃ e, (ofPlan p d).1 = .error e ∧ (ofPlans used (p :: plans) d).1 = .error e) ∨
    ∃ l d', (ofPlan p d).1 = .ok l ∧
      (ofPlans used (p :: plans) d).1 = (ofPlans (p.name :: used) plans d').1.map (l :: ·) := by
  rw [ofPlans, if_neg hfresh]
  rcases hopen : ofPlan p d with ⟨e | l, d'⟩
  · exact Or.inl ⟨e, rfl, rfl⟩
  · refine Or.inr ⟨l, d', rfl, ?_⟩
    dsimp only
    rcases ofPlans (p.name :: used) plans d' with ⟨e | ls, d''⟩
    · rfl
    · rfl

theorem setup_of_ofPlans (hvalid : SinksValid plans) (hused : ∀ p ∈ plans, p.name ∉ used)
    (h : (ofPlans used plans d).1 = .error f) : ∃ name fault, f = .setup name fault := by
  induction plans generalizing used d with
  | nil => exact absurd h nofun
  | cons p plans ih =>
    obtain ⟨hfresh, hused⟩ := List.forall_mem_cons.1 hused
    obtain ⟨hnew, hnodup⟩ := List.nodup_cons.1 hvalid.names_nodup
    obtain ⟨hcapacity, hcapacities⟩ := List.forall_mem_cons.1 hvalid.capacity
    rcases ofPlans_cons plans d hfresh with ⟨e, hopen, heq⟩ | ⟨l, d', -, heq⟩
    · obtain rfl : e = f := Except.error.inj (heq.symm.trans h)
      obtain ⟨fault, rfl⟩ := setup_of_ofPlan hcapacity hopen
      exact ⟨p.name, fault, rfl⟩
    · have hused' : ∀ q ∈ plans, q.name ∉ p.name :: used := by
        intro q hq hmem
        rcases List.mem_cons.1 hmem with hsame | hmem
        · exact hnew (List.mem_map.2 ⟨q, hq, hsame⟩)
        · exact hused q hq hmem
      rw [heq] at h
      exact ih ⟨(List.forall_mem_cons.1 hvalid.named).2, hcapacities, hnodup⟩ hused'
        (map_eq_error.1 h)

/-- Plans that do not fail open one sink each. -/
theorem opens_of_ofPlans {ls : List SinkLine} (h : (ofPlans used plans d).1 = .ok ls) :
    List.Forall₂ Opens plans ls := by
  induction plans generalizing used d ls with
  | nil =>
    rw [← Except.ok.inj h]
    exact .nil
  | cons p plans ih =>
    by_cases hfresh : p.name ∈ used
    · rw [ofPlans, if_pos hfresh] at h
      exact absurd h nofun
    rcases ofPlans_cons plans d hfresh with ⟨e, -, heq⟩ | ⟨l, d', hopen, heq⟩
    · exact absurd (heq.symm.trans h) nofun
    · rw [heq] at h
      obtain ⟨rest, hrest, rfl⟩ := map_eq_ok.1 h
      exact .cons (opens_of_ofPlan hopen) (ih hrest)

theorem feeds_of_opens {ls : List SinkLine} (h : List.Forall₂ Opens plans ls) :
    ls.map (·.feed) = plans.map fun p => .ofCapacity p.name p.capacity := by
  induction h with
  | nil => rfl
  | cons hfirst _ ih => rw [List.map_cons, List.map_cons, hfirst.feed_eq, ih]

theorem prompt_of_opens {ls : List SinkLine} (h : List.Forall₂ Opens plans ls) :
    ∀ l ∈ ls, l.outlet.isPrompt = true := by
  induction h with
  | nil => exact fun _ hmem => absurd hmem List.not_mem_nil
  | cons hfirst _ ih => exact List.forall_mem_cons.2 ⟨hfirst.prompt, ih⟩

end SinkLine

namespace Dispatcher

variable {plans : List SinkPlan} {d : Disk}

theorem ofPlans_eq (plans : List SinkPlan) (d : Disk) :
    (ofPlans plans [] d).1 = (SinkLine.ofPlans [] plans d).1.map fun lines => { lines } := by
  unfold ofPlans
  rcases SinkLine.ofPlans [] plans d with ⟨e | ls, d'⟩
  · rfl
  · change Except.ok _ = Except.ok _
    rw [List.append_nil]

/-- Sinks under names of their own and with room for a set fail only in setting up what they write
to. -/
theorem setup_of_ofPlans {f : DispatchFault} (hvalid : SinksValid plans)
    (h : (ofPlans plans [] d).1 = .error f) : ∃ name fault, f = .setup name fault := by
  rw [ofPlans_eq] at h
  exact SinkLine.setup_of_ofPlans hvalid (fun _ _ => List.not_mem_nil) (map_eq_error.1 h)

theorem opens_of_ofPlans {disp : Dispatcher} (h : (ofPlans plans [] d).1 = .ok disp) :
    List.Forall₂ SinkLine.Opens plans disp.lines := by
  rw [ofPlans_eq] at h
  obtain ⟨ls, hls, rfl⟩ := map_eq_ok.1 h
  exact SinkLine.opens_of_ofPlans hls

end Dispatcher

end LidarSync
