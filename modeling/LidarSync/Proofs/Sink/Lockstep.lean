import LidarSync.Proofs.Sink.Dispatch
import LidarSync.Proofs.Sink.Plans

/-!
# The dispatcher of a run as an interleaving

`Dispatcher.settle` lets the workers do all that they can, one after the other, and `Dispatcher.offer`
and `Dispatcher.close` go through the sinks in order. So what they do is one of the interleavings of a
dispatcher and its workers (`Dispatch.Fed`), and the dispatcher of a run is finished when it has been
closed, unless a sink has to wait for somebody else.
-/

namespace LidarSync

/-! ## One worker -/

namespace Lane

variable {σ : Type} {sink : Sink σ}

/-- A lane after its worker has gone on at an instant. -/
def worked (l : Lane) (now : Instant) (ts : List Task) : Lane :=
  l.after (ts.map fun t => (now, .task t))

theorem worked_append (l : Lane) (now : Instant) (ts us : List Task) :
    l.worked now (ts ++ us) = (l.worked now ts).worked now us := by
  unfold worked after
  rw [List.map_append, List.foldl_append]

theorem feed_worked_single {l l' : Lane} {t : Task} (h : l.work? t = some l') (now : Instant) :
    (l.worked now [t]).feed = l'.feed := by
  change (l.next now (.task t)).feed = _
  rw [next_of_step (x := .task t) h]

/-- The worker takes what `Feed.next` says. -/
theorem exists_worked_next {l : Lane} {s : SyncedSet} {f : Feed} (h : l.feed.next = some (s, f))
    (now : Instant) : ∃ ts, (l.worked now ts).feed = f ∧ f.current = some s := by
  cases hcurrent : l.feed.current with
  | some s' =>
    unfold Feed.next at h
    rw [hcurrent] at h
    obtain ⟨rfl, rfl⟩ := Prod.mk.inj (Option.some.inj h)
    exact ⟨[], rfl, hcurrent⟩
  | none =>
    have hwork : l.work? .take = some { l with feed := f } := by
      unfold work?
      rw [hcurrent]
      dsimp only
      rw [h]
      rfl
    refine ⟨[.take], feed_worked_single hwork now, ?_⟩
    unfold Feed.next at h
    rw [hcurrent] at h
    dsimp only at h
    split at h
    · exact absurd h nofun
    · obtain ⟨rfl, rfl⟩ := Prod.mk.inj (Option.some.inj h)
      rfl

theorem exists_worked_work (hsteady : ∀ s x y, sink.write s x ≠ .broken y) (now : Instant) (n : Nat)
    (l : Lane) (x : σ) : ∃ ts, (l.worked now ts).feed = (l.feed.work sink n x).1 := by
  induction n generalizing l x with
  | zero => exact ⟨[], rfl⟩
  | succ n ih =>
    unfold Feed.work
    cases hnext : l.feed.next with
    | none => exact ⟨[], rfl⟩
    | some p =>
      obtain ⟨s, f⟩ := p
      obtain ⟨ts, hts, hcurrent⟩ := exists_worked_next hnext now
      dsimp only
      cases hwrite : sink.write s x with
      | finished ok y =>
        have hwork : (l.worked now ts).work? (.finish ok) = some { l.worked now ts with
            feed := f.finish ok
            finished := (l.worked now ts).finished ++ [(s, ok)] } := by
          unfold work?
          rw [hts, hcurrent]
        have hfinish := feed_worked_single hwork now
        obtain ⟨us, hus⟩ := ih ((l.worked now ts).worked now [.finish ok]) y
        refine ⟨ts ++ [.finish ok] ++ us, ?_⟩
        rw [worked_append, worked_append, hus, hfinish]
      | waiting y => exact ⟨ts, hts⟩
      | broken y => exact absurd hwrite (hsteady s x y)

/-- All that a worker can do, for a sink that does not break down. -/
theorem exists_worked_settle (hsteady : ∀ s x y, sink.write s x ≠ .broken y) (now : Instant)
    (l : Lane) (x : σ) : ∃ ts, (l.worked now ts).feed = (l.feed.settle sink x).1 := by
  obtain ⟨ts, hts⟩ := exists_worked_work hsteady now l.feed.backlog l x
  unfold Feed.settle
  generalize l.feed.work sink l.feed.backlog x = p at hts ⊢
  obtain ⟨f, y⟩ := p
  dsimp only at hts ⊢
  by_cases hrest : (f.closing && !f.stopped && f.backlog == 0) = true
  · have hfree : f.current = none := by
      have hbacklog : f.backlog = 0 := eq_of_beq (Bool.and_elim_right hrest)
      unfold Feed.backlog at hbacklog
      cases hcurrent : f.current with
      | none => rfl
      | some s =>
        rw [hcurrent] at hbacklog
        exact absurd hbacklog (Nat.succ_ne_zero _)
    have hwork : (l.worked now ts).work? .stop = some { l.worked now ts with
        feed := (f.rest Sink.idle ()).1 } := by
      unfold work?
      rw [hts, hfree]
      dsimp only
      rw [if_pos hrest]
    have hstop := feed_worked_single hwork now
    refine ⟨ts ++ [.stop], ?_⟩
    rw [worked_append, hstop]
    unfold Feed.rest
    rw [if_pos hrest, if_pos hrest]
  · refine ⟨ts, ?_⟩
    unfold Feed.rest
    rw [if_neg hrest, hts]

end Lane

/-! ## Sinks that wait for nobody -/

namespace Feed

theorem backlog_of_next_eq_none {f : Feed} (h : f.next = none) : f.backlog = 0 := by
  unfold next at h
  unfold backlog
  cases hcurrent : f.current with
  | some s =>
    rw [hcurrent] at h
    exact absurd h nofun
  | none =>
    rw [hcurrent] at h
    cases hwaiting : f.queue.waiting with
    | nil => rfl
    | cons s rest =>
      unfold Outbox.receive at h
      rw [hwaiting] at h
      exact absurd h nofun

/-- The set in hand counts as backlog until it is finished. -/
theorem backlog_finish_of_next {f f' : Feed} {s : SyncedSet} (h : f.next = some (s, f')) (ok : Bool) :
    (f'.finish ok).backlog + 1 = f.backlog ∧ f'.closing = f.closing := by
  unfold next at h
  unfold backlog
  cases hcurrent : f.current with
  | some s' =>
    rw [hcurrent] at h
    obtain ⟨-, rfl⟩ := Prod.mk.inj (Option.some.inj h)
    exact ⟨rfl, rfl⟩
  | none =>
    rw [hcurrent] at h
    cases hwaiting : f.queue.waiting with
    | nil =>
      unfold Outbox.receive at h
      rw [hwaiting] at h
      exact absurd h nofun
    | cons s' rest =>
      unfold Outbox.receive at h
      rw [hwaiting] at h
      obtain ⟨-, rfl⟩ := Prod.mk.inj (Option.some.inj h)
      exact ⟨rfl, rfl⟩

variable {σ : Type} {sink : Sink σ} {P : σ → Prop}

theorem work_of_finishing (hfinish : ∀ s x, P x → ∃ ok y, sink.write s x = .finished ok y ∧ P y)
    {n : Nat} {f : Feed} {x : σ} (hx : P x) (hn : f.backlog ≤ n) :
    (f.work sink n x).1.backlog = 0 ∧ (f.work sink n x).1.closing = f.closing ∧
      P (f.work sink n x).2 := by
  induction n generalizing f x with
  | zero => exact ⟨Nat.le_zero.1 hn, rfl, hx⟩
  | succ n ih =>
    unfold work
    cases hnext : f.next with
    | none => exact ⟨backlog_of_next_eq_none hnext, rfl, hx⟩
    | some p =>
      obtain ⟨s, f'⟩ := p
      obtain ⟨ok, y, hwrite, hy⟩ := hfinish s x hx
      obtain ⟨hbacklog, hclosing⟩ := backlog_finish_of_next hnext ok
      obtain ⟨hnone, hsame, hafter⟩ := ih (f := f'.finish ok) hy (by omega)
      dsimp only
      rw [hwrite]
      exact ⟨hnone, hsame.trans hclosing, hafter⟩

/-- A worker whose sink finishes every set has stopped once it has done all that it can and nothing more
will come. -/
theorem settle_of_finishing (hfinish : ∀ s x, P x → ∃ ok y, sink.write s x = .finished ok y ∧ P y)
    (hclose : ∀ x, P x → P (sink.close x)) {f : Feed} {x : σ} (hx : P x) :
    (f.closing = true → (f.settle sink x).1.stopped = true) ∧
      (f.settle sink x).1.closing = f.closing ∧ P (f.settle sink x).2 := by
  obtain ⟨hbacklog, hclosing, hafter⟩ := work_of_finishing hfinish hx (Nat.le_refl f.backlog)
  unfold settle rest
  generalize f.work sink f.backlog x = p at hbacklog hclosing hafter ⊢
  obtain ⟨f', y⟩ := p
  dsimp only at hbacklog hclosing hafter ⊢
  by_cases hrest : (f'.closing && !f'.stopped && f'.backlog == 0) = true
  · rw [if_pos hrest]
    exact ⟨fun _ => rfl, hclosing, hclose y hafter⟩
  · rw [if_neg hrest]
    refine ⟨fun hclosed => ?_, hclosing, hafter⟩
    rw [hclosing, hclosed, hbacklog] at hrest
    cases hstopped : f'.stopped with
    | true => rfl
    | false =>
      rw [hstopped] at hrest
      exact absurd rfl hrest

end Feed

namespace Outlet

theorem write_ne_broken (name : String) (s : SyncedSet) (x y : Outlet × Surroundings) :
    (sink name).write s x ≠ .broken y := by
  obtain ⟨o, w⟩ := x
  cases o with
  | log => exact nofun
  | archive a => exact nofun
  | channel c =>
    have hpush : ∀ (ms : List PublishedCloud) (c c' : Channel), c.push ms ≠ .broken c' := by
      intro ms
      induction ms with
      | nil => exact fun _ _ => nofun
      | cons m ms ih =>
        intro c c'
        unfold Channel.push
        split
        · exact ih _ _
        · exact nofun
        · exact nofun
    intro heq
    change (c.push (s.messages.drop c.sent)).map _ = _ at heq
    cases hresult : c.push (s.messages.drop c.sent) with
    | finished ok c' =>
      rw [hresult] at heq
      exact absurd heq nofun
    | waiting c' =>
      rw [hresult] at heq
      exact absurd heq nofun
    | broken c' => exact hpush _ _ _ hresult

theorem write_of_isPrompt (name : String) (s : SyncedSet) (x : Outlet × Surroundings)
    (h : x.1.isPrompt = true) :
    ∃ ok y, (sink name).write s x = .finished ok y ∧ y.1.isPrompt = true := by
  obtain ⟨o, w⟩ := x
  cases o with
  | log => exact ⟨_, _, rfl, rfl⟩
  | archive a => exact ⟨_, _, rfl, rfl⟩
  | channel c => exact absurd h nofun

theorem close_of_isPrompt (name : String) (x : Outlet × Surroundings) (h : x.1.isPrompt = true) :
    ((sink name).close x).1.isPrompt = true := by
  obtain ⟨o, w⟩ := x
  cases o with
  | log => rfl
  | archive a => rfl
  | channel c => exact absurd h nofun

end Outlet

/-- A prompt sink stays one, and its worker has stopped once it has done all that it can when the queue
is closed. -/
theorem SinkLine.settle_of_prompt (l : SinkLine) (hprompt : l.outlet.isPrompt = true)
    (w : Surroundings) :
    (l.settle w).1.outlet.isPrompt = true ∧
      (l.feed.closing = true → (l.settle w).1.feed.stopped = true) := by
  obtain ⟨hstopped, -, hafter⟩ := Feed.settle_of_finishing
    (P := fun x : Outlet × Surroundings => x.1.isPrompt = true)
    (Outlet.write_of_isPrompt l.feed.name) (Outlet.close_of_isPrompt l.feed.name)
    (f := l.feed) (x := (l.outlet, w)) hprompt
  exact ⟨hafter, hstopped⟩

/-! ## All workers -/

theorem modify_length_append {α : Type} (f : α → α) (before rest : List α) (a : α) :
    (before ++ a :: rest).modify before.length f = before ++ f a :: rest := by
  induction before with
  | nil => rfl
  | cons b before ih => exact congrArg (b :: ·) ih

namespace Dispatch

variable {d : Dispatch} {sinks : List (String × Nat)}

theorem after_work (d : Dispatch) (i : Nat) (ts : List Lane.Task) :
    d.after (ts.map (.work i)) = { d with lanes := d.lanes.modify i (·.worked d.now ts) } := by
  induction ts using List.reverseRecOn with
  | nil =>
    rw [show (fun l : Lane => l.worked d.now []) = id from rfl, List.modify_id]
    rfl
  | append_singleton ts t ih =>
    rw [List.map_append, List.map_singleton, after_concat, ih, next_work]
    dsimp only
    rw [List.modify_modify_eq]
    congr 2
    funext l
    exact (l.worked_append d.now ts [t]).symm

/-- The sinks of a dispatcher have the feeds of a list of sinks. -/
def Fed (d : Dispatch) (ls : List SinkLine) : Prop := d.lanes.map (·.feed) = ls.map (·.feed)

theorem Fed.length_eq {ls : List SinkLine} (hfed : d.Fed ls) : ls.length = d.lanes.length := by
  have hsame := congrArg List.length hfed
  rw [List.length_map, List.length_map] at hsame
  exact hsame.symm

theorem Fed.getElem? {ls : List SinkLine} (hfed : d.Fed ls) {i : Nat} {l : SinkLine}
    (hl : ls[i]? = some l) : ∃ lane, d.lanes[i]? = some lane ∧ lane.feed = l.feed := by
  have hsame : (d.lanes.map (·.feed))[i]? = (ls.map (·.feed))[i]? := congrArg (·[i]?) hfed
  rw [List.getElem?_map, List.getElem?_map, hl] at hsame
  exact Option.map_eq_some_iff.1 hsame

theorem settleAll_of_append {before rest : List Lane} (hlanes : d.lanes = before ++ rest)
    {ls : List SinkLine} (hfed : rest.map (·.feed) = ls.map (·.feed)) (w : Surroundings) :
    ∃ xs rest', (∀ x ∈ xs, x.isOwn = true) ∧ d.after xs = { d with lanes := before ++ rest' } ∧
      rest'.map (·.feed) = (SinkLine.settleAll ls w).1.map (·.feed) := by
  induction ls generalizing before rest d w with
  | nil =>
    obtain rfl := List.map_eq_nil_iff.1 hfed
    exact ⟨[], [], nofun, by rw [← hlanes]; rfl, rfl⟩
  | cons l ls ih =>
    cases rest with
    | nil => exact absurd hfed nofun
    | cons lane rest =>
      obtain ⟨hfeed, hfed⟩ := List.cons_eq_cons.1 hfed
      have hfeed : lane.feed = l.feed := hfeed
      obtain ⟨ts, hts⟩ := lane.exists_worked_settle
        (Outlet.write_ne_broken l.feed.name) d.now (l.outlet, w)
      rw [hfeed] at hts
      have hworked : d.after (ts.map (.work before.length)) =
          { d with lanes := before ++ [lane.worked d.now ts] ++ rest } := by
        rw [after_work, hlanes, modify_length_append, List.append_assoc]
        rfl
      obtain ⟨xs, rest', hown, hafter, hrest⟩ :=
        ih (d := { d with lanes := before ++ [lane.worked d.now ts] ++ rest })
          (w := (l.settle w).2) rfl hfed
      refine ⟨ts.map (.work before.length) ++ xs, lane.worked d.now ts :: rest', ?_, ?_, ?_⟩
      · intro x hx
        rcases List.mem_append.1 hx with hx | hx
        · obtain ⟨t, -, rfl⟩ := List.mem_map.1 hx
          rfl
        · exact hown x hx
      · rw [after_append, hworked, hafter, List.append_assoc]
        rfl
      · exact List.cons_eq_cons.2 ⟨hts, hrest⟩

/-- All that the workers can do. -/
theorem Fed.settle {ls : List SinkLine} (h : d.Fed ls) (w : Surroundings) :
    ∃ xs lanes, (∀ x ∈ xs, x.isOwn = true) ∧ d.after xs = { d with lanes } ∧
      Fed { d with lanes } (SinkLine.settleAll ls w).1 :=
  settleAll_of_append (List.nil_append d.lanes).symm h w

/-! ## Going through the sinks in order -/

theorem feed_next_offer {l : Lane} (hsending : l.feed.closing = false) (now : Instant)
    (s : SyncedSet) : (l.next now (.offer s)).feed = (l.feed.offer s).2 := by
  have hstep : l.step? (.offer s) =
      some { l with feed := (l.feed.offer s).2, offered := l.offered ++ [s] } := by
    dsimp only [Lane.step?]
    rw [hsending, if_neg Bool.false_ne_true]
  rw [Lane.next_of_step hstep]

theorem after_offers {before rest : List Lane} (hlanes : d.lanes = before ++ rest) {s : SyncedSet}
    (hphase : d.phase = d.offeringFrom s before.length) :
    d.after (List.replicate rest.length .offer) =
      { d with lanes := before ++ rest.map (·.next d.now (.offer s)), phase := .receiving } := by
  induction rest generalizing before d with
  | nil =>
    rw [List.append_nil] at hlanes
    rw [offeringFrom_of_le (by rw [hlanes])] at hphase
    rw [List.map_nil, List.append_nil, ← hlanes, ← hphase]
    rfl
  | cons l rest ih =>
    have hlength : before.length < d.lanes.length := by
      rw [hlanes, List.length_append, List.length_cons]
      omega
    rw [offeringFrom_of_lt hlength] at hphase
    have hnext : d.next .offer = { d with
        lanes := before ++ [l.next d.now (.offer s)] ++ rest
        phase := d.offeringFrom s (before.length + 1) } := by
      rw [next_offer hphase, hlanes, modify_length_append, List.append_assoc]
      rfl
    have hsame : (d.next .offer).phase =
        (d.next .offer).offeringFrom s (before ++ [l.next d.now (.offer s)]).length := by
      have hmany : (before ++ [l.next d.now (.offer s)] ++ rest).length = d.lanes.length := by
        rw [hlanes]
        simp only [List.length_append, List.length_cons, List.length_nil]
        omega
      rw [hnext]
      unfold offeringFrom
      dsimp only
      rw [hmany, List.length_append, List.length_singleton]
    have hrest := ih (d := d.next .offer) (by rw [hnext]) hsame
    change (d.next .offer).after (List.replicate rest.length .offer) = _
    rw [hrest, hnext, List.append_assoc]
    rfl

theorem Sound.sending (h : Sound sinks d) (hphase : d.phase = .receiving) :
    ∀ l ∈ d.lanes, l.feed.closing = false := by
  intro l hl
  obtain ⟨i, hi, heq⟩ := List.getElem_of_mem hl
  obtain ⟨l', name, capacity, hl', hsink⟩ := h.exists_lane (h.length_eq ▸ hi)
  have hget : d.lanes[i]? = some l := (List.getElem?_eq_getElem hi).trans (congrArg some heq)
  obtain rfl := Option.some.inj (hl'.symm.trans hget)
  rw [(h.lanes i l' name capacity hl' hsink).closing_eq, hphase]
  rfl

/-- A round is offered to all sinks. -/
theorem Fed.offer {ls : List SinkLine} (hfed : d.Fed ls) (h : Sound sinks d)
    (hphase : d.phase = .receiving) (s : SyncedSet) :
    ∃ lanes, (d.next (.receive s)).after (List.replicate d.lanes.length .offer) =
        { d with lanes, received := d.received ++ [s] } ∧
      Fed { d with lanes } (ls.map (·.offer s)) := by
  have hnext := next_receive hphase s
  refine ⟨d.lanes.map (·.next d.now (.offer s)), ?_, ?_⟩
  · have hlanes : (d.next (.receive s)).lanes = [] ++ d.lanes := by
      rw [hnext]
      rfl
    have hoffers := after_offers (s := s) hlanes (by rw [hnext]; rfl)
    rw [hoffers, hnext, ← hphase]
    rfl
  · unfold Fed at hfed ⊢
    dsimp only
    rw [List.map_map, List.map_map]
    calc d.lanes.map (fun l => (l.next d.now (.offer s)).feed)
        = d.lanes.map (fun l => (l.feed.offer s).2) :=
          List.map_congr_left fun l hl => feed_next_offer (h.sending hphase l hl) d.now s
      _ = (d.lanes.map (·.feed)).map (fun f => (f.offer s).2) := by rw [List.map_map]; rfl
      _ = (ls.map (·.feed)).map (fun f => (f.offer s).2) := by rw [hfed]
      _ = _ := by rw [List.map_map]; rfl

/-! ## Closing the sinks -/

theorem settleAll_prompt {ls : List SinkLine} (hprompt : ∀ l ∈ ls, l.outlet.isPrompt = true)
    (w : Surroundings) : ∀ l ∈ (SinkLine.settleAll ls w).1, l.outlet.isPrompt = true := by
  induction ls generalizing w with
  | nil => exact fun _ h => absurd h List.not_mem_nil
  | cons l ls ih =>
    obtain ⟨hfirst, hprompt⟩ := List.forall_mem_cons.1 hprompt
    exact List.forall_mem_cons.2 ⟨(l.settle_of_prompt hfirst w).1, ih hprompt _⟩

/-- Once the workers of prompt sinks have done all that they can, those have stopped whose queues are
closed. -/
theorem settleAll_stopped {ls : List SinkLine} (hprompt : ∀ l ∈ ls, l.outlet.isPrompt = true)
    (w : Surroundings) {i : Nat} {l : SinkLine} (hl : ls[i]? = some l)
    (hclosing : l.feed.closing = true) :
    ∃ l', (SinkLine.settleAll ls w).1[i]? = some l' ∧ l'.feed.stopped = true := by
  induction ls generalizing i w with
  | nil => exact absurd hl nofun
  | cons l₀ ls ih =>
    obtain ⟨hfirst, hprompt⟩ := List.forall_mem_cons.1 hprompt
    cases i with
    | zero =>
      obtain rfl := Option.some.inj hl
      exact ⟨_, rfl, (l₀.settle_of_prompt hfirst w).2 hclosing⟩
    | succ i => exact ih hprompt _ hl

theorem map_modify {α β : Type} {g : α → β} {f : α → α} {f' : β → β} {l : List α} {n : Nat}
    (h : ∀ a, l[n]? = some a → g (f a) = f' (g a)) :
    (l.modify n f).map g = (l.map g).modify n f' := by
  induction l generalizing n with
  | nil => simp only [List.modify_nil, List.map_nil]
  | cons a l ih =>
    cases n with
    | zero => exact congrArg (· :: l.map g) (h a rfl)
    | succ n => exact congrArg (g a :: ·) (ih h)

theorem modify_prompt {ls : List SinkLine} (hprompt : ∀ l ∈ ls, l.outlet.isPrompt = true) {n : Nat} :
    ∀ l ∈ ls.modify n SinkLine.close, l.outlet.isPrompt = true := by
  intro l hl
  obtain ⟨i, hi, heq⟩ := List.getElem_of_mem hl
  have hget := (List.getElem?_eq_getElem hi).trans (congrArg some heq)
  rcases getElem?_modify_cases hget with ⟨-, hsame⟩ | ⟨-, l', hl', rfl⟩
  · exact hprompt l (List.mem_of_getElem? hsame)
  · exact hprompt l' (List.mem_of_getElem? hl')

theorem Fed.close {ls : List SinkLine} (hfed : d.Fed ls) {n : Nat}
    (hsending : ∀ l, d.lanes[n]? = some l → l.feed.closing = false) :
    Fed { d with lanes := d.lanes.modify n (·.next d.now .close) } (ls.modify n SinkLine.close) := by
  have hlanes : (d.lanes.modify n (·.next d.now .close)).map (·.feed) =
      (d.lanes.map (·.feed)).modify n Feed.close :=
    map_modify fun l hl => (Lane.next_close (hsending l hl) d.now).2
  have hlines : (ls.modify n SinkLine.close).map (·.feed) = (ls.map (·.feed)).modify n Feed.close :=
    map_modify fun _ _ => rfl
  exact hlanes.trans ((congrArg (·.modify n Feed.close) hfed).trans hlines.symm)

/-- The sink whose queue has been closed has stopped, so that it can be reported. -/
theorem exists_stopped {ls : List SinkLine} (hprompt : ∀ l ∈ ls, l.outlet.isPrompt = true) {n : Nat}
    (hn : n < ls.length) (w : Surroundings) :
    ∃ l, (SinkLine.settleAll (ls.modify n SinkLine.close) w).1[n]? = some l ∧
      l.feed.stopped = true := by
  have hclosed : (ls.modify n SinkLine.close)[n]? = some ls[n].close := by
    rw [List.getElem?_modify_eq, List.getElem?_eq_getElem hn]
    rfl
  exact settleAll_stopped (modify_prompt hprompt) w hclosed rfl

/-- The queue of one sink is closed, all workers do what they can, and the sink is reported. -/
theorem Fed.closeNext {ls : List SinkLine} (hfed : d.Fed ls) (h : Sound sinks d)
    (hprompt : ∀ l ∈ ls, l.outlet.isPrompt = true) {n : Nat} (hphase : d.phase = .closing n)
    (hmore : n < d.lanes.length) (w : Surroundings) :
    ∃ xs, (∀ x ∈ xs, x.isOwn = true) ∧ (d.after xs).phase = .closing (n + 1) ∧
      (d.after xs).Fed (SinkLine.settleAll (ls.modify n SinkLine.close) w).1 := by
  obtain ⟨lane, name, capacity, hlane, hsink⟩ := h.exists_lane (h.length_eq ▸ hmore)
  have hsending : ∀ l, d.lanes[n]? = some l → l.feed.closing = false := by
    intro l hl
    obtain rfl := Option.some.inj (hlane.symm.trans hl)
    exact (h.lanes n lane name capacity hlane hsink).sending_of_closing hphase
  have hclose := next_close hphase hmore
  have hclosed : (d.next .close).Fed (ls.modify n SinkLine.close) := by
    rw [hclose]
    exact hfed.close hsending
  obtain ⟨xs, lanes, hown, hafter, hsettled⟩ := hclosed.settle w
  obtain ⟨l, hl, hstopped⟩ := exists_stopped hprompt (hfed.length_eq ▸ hmore) w
  obtain ⟨lane', hlane', hfeed⟩ := hsettled.getElem? hl
  have hcollect := next_collect (d := { d.next .close with lanes }) (n := n) (by rw [hclose]) hlane'
    (hfeed ▸ hstopped)
  rw [← hafter] at hcollect
  refine ⟨(.close :: xs) ++ [.collect], ?_, ?_, ?_⟩
  · intro x hx
    rcases List.mem_append.1 hx with hx | hx
    · rcases List.mem_cons.1 hx with rfl | hx
      · rfl
      · exact hown x hx
    · rw [List.mem_singleton.1 hx]
      rfl
  · rw [after_concat]
    exact congrArg Dispatch.phase hcollect
  · rw [after_concat]
    change (((d.next .close).after xs).next .collect).Fed _
    rw [hcollect]
    rw [hafter]
    exact hsettled

theorem Fed.closeFrom {sinks : List (String × Nat)} {k n : Nat} {e : Dispatcher}
    (hfed : d.Fed e.lines) (h : Sound sinks d) (hprompt : ∀ l ∈ e.lines, l.outlet.isPrompt = true)
    (hphase : d.phase = .closing n) (hmany : n + k = d.lanes.length) (w : Surroundings) :
    ∃ xs, (∀ x ∈ xs, x.isOwn = true) ∧ (d.after xs).Finished ∧
      (d.after xs).Fed (Dispatcher.closeFrom n k e w).1.lines := by
  induction k generalizing d n e w with
  | zero =>
    exact ⟨[], nofun, hphase.trans (congrArg Phase.closing hmany), hfed⟩
  | succ k ih =>
    obtain ⟨xs, hown, hphase', hfed'⟩ := hfed.closeNext h hprompt hphase (by omega) w
    have hmany' : n + 1 + k = (d.after xs).lanes.length := by
      rw [(h.after xs).length_eq, ← h.length_eq, ← hmany]
      omega
    obtain ⟨ys, hown', hfinished, hlast⟩ := ih (d := d.after xs)
      (e := { e with lines := (SinkLine.settleAll (e.lines.modify n SinkLine.close) w).1 })
      (w := (SinkLine.settleAll (e.lines.modify n SinkLine.close) w).2) hfed' (h.after xs)
      (settleAll_prompt (modify_prompt hprompt) w) hphase' hmany'
    refine ⟨xs ++ ys, fun x hx => (List.mem_append.1 hx).elim (hown x) (hown' x), ?_, ?_⟩
    · rw [after_append]
      exact hfinished
    · rw [after_append]
      exact hlast

/-- All sinks have been reported as they are when all are closed. -/
theorem Sound.report_eq (h : Sound sinks d) (hfinished : d.Finished) :
    d.report = d.lanes.map fun l => (l.feed.name, l.feed.tally) := by
  have hlength : d.report.length = d.lanes.length := by
    rw [h.report_length, hfinished]
    rfl
  apply List.ext_getElem?
  intro i
  by_cases hi : i < d.lanes.length
  · obtain ⟨l, name, capacity, hl, hsink⟩ := h.exists_lane (h.length_eq ▸ hi)
    obtain ⟨hname, hreport, -⟩ := h.of_finished hfinished hl hsink
    rw [hreport, List.getElem?_map, hl, ← hname]
    rfl
  · rw [List.getElem?_eq_none (by omega), List.getElem?_eq_none (by rw [List.length_map]; omega)]

/-- A dispatcher of a run is finished when it is closed, and has reported the same. -/
theorem Fed.finish {e : Dispatcher} (hfed : d.Fed e.lines) (h : Sound sinks d)
    (hprompt : ∀ l ∈ e.lines, l.outlet.isPrompt = true) (hphase : d.phase = .closing 0)
    (w : Surroundings) :
    ∃ xs, (∀ x ∈ xs, x.isOwn = true) ∧ (d.after xs).Finished ∧
      (d.after xs).report = (e.close w).1.report := by
  have hmany : 0 + e.lines.length = d.lanes.length := (Nat.zero_add _).trans hfed.length_eq
  obtain ⟨xs, hown, hfinished, hclosed⟩ := hfed.closeFrom h hprompt hphase hmany w
  refine ⟨xs, hown, hfinished, ?_⟩
  rw [(h.after xs).report_eq hfinished]
  have hnamed := congrArg (List.map fun f : Feed => (f.name, f.tally)) hclosed
  rw [List.map_map, List.map_map] at hnamed
  exact hnamed

end Dispatch

end LidarSync
