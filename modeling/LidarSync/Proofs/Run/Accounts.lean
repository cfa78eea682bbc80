import LidarSync.CommandLine.Execution
import LidarSync.Proofs.Run.Lockstep

/-!
# What a run adds up to

However the parts of a run take turns and whatever stops its main loop, the numbers in its summary and
the sets at its sinks belong together (`Flow.Accounts`). A run whose loop has stopped can always be
finished (`Flow.exists_finished`), and one that comes to its end has been. A limit of rounds is kept if
it lets a round be published at all: the loop looks at the limit only after it has published one
(`Flow.run_exceeds_zero`).
-/

namespace LidarSync

namespace Flow

open CommandLine (RunOptions)

variable {s : SyncSettings} {sinks : List (String × Nat)} {limits : RunLimits} {f : Flow} {c : Cause}

/-! ## The way to the end -/

/-- The dispatcher always gets ready for the next set, or it has been told that there is none. -/
theorem exists_receiving (hs : Sound s sinks limits f) (hopen : ¬ f.dispatch.Ended) :
    ∃ xs d, f.after xs = { f with dispatch := d } ∧ d.phase = .receiving := by
  cases hphase : f.dispatch.phase with
  | receiving => exact ⟨[], f.dispatch, rfl, hphase⟩
  | offering set n =>
    have hwithin := hs.dispatch.within
    rw [hphase] at hwithin
    obtain ⟨hn, -⟩ := hwithin
    have htake : (f.dispatch.lanes.take n).length = n := List.length_take_of_le (Nat.le_of_lt hn)
    have hoffers := Dispatch.after_offers (List.take_append_drop n f.dispatch.lanes).symm (s := set)
      (by rw [htake, Dispatch.offeringFrom_of_lt hn, hphase])
    refine ⟨(List.replicate (f.dispatch.lanes.drop n).length .offer).map .serve, _,
      after_serve (fun x hx => by rw [List.eq_of_mem_replicate hx]; rfl) f, ?_⟩
    rw [hoffers]
  | closing n => exact absurd ⟨n, Or.inl hphase⟩ hopen
  | awaiting n => exact absurd ⟨n, Or.inr hphase⟩ hopen

/-- A loop that has stopped leaves sets to the dispatcher, which takes one after the other and then
finds that no more will come. -/
theorem exists_ended (hs : Sound s sinks limits f) (hstage : f.stage = .stopped c) :
    ∃ xs, (f.after xs).dispatch.Ended := by
  induction hwaiting : f.handoff.waiting generalizing f with
  | nil =>
    by_cases hended : f.dispatch.Ended
    · exact ⟨[], hended⟩
    obtain ⟨xs, d, hafter, hphase⟩ := exists_receiving hs hended
    refine ⟨xs ++ [.hangUp], ?_⟩
    rw [after_concat, hafter]
    unfold next
    rw [hstage, hwaiting]
    unfold Dispatch.next
    dsimp only
    rw [hphase]
    exact ⟨0, Or.inl rfl⟩
  | cons set rest ih =>
    by_cases hended : f.dispatch.Ended
    · exact ⟨[], hended⟩
    obtain ⟨xs, d, hafter, hphase⟩ := exists_receiving hs hended
    have hfetch := next_fetch (f := { f with dispatch := d }) hphase hwaiting
    rw [← hafter, ← after_concat] at hfetch
    obtain ⟨ys, hys⟩ := ih (f := f.after (xs ++ [.fetch])) (hs.after _)
      (by rw [hfetch, hafter]; exact hstage) (by rw [hfetch])
    refine ⟨xs ++ [.fetch] ++ ys, ?_⟩
    rw [after_append]
    exact hys

/-- A run whose loop has stopped can always be finished. -/
theorem exists_finished (hs : Sound s sinks limits f) (hstage : f.stage = .stopped c) :
    ∃ xs, (f.after xs).dispatch.Finished := by
  obtain ⟨xs, hended⟩ := exists_ended hs hstage
  obtain ⟨ys, hown, hfinished⟩ := Dispatch.exists_finished (hs.after xs).dispatch hended
  refine ⟨xs ++ ys.map .serve, ?_⟩
  rw [after_append, after_serve hown]
  exact hfinished

/-! ## Limits -/

/-- The limits of a run tell where its loop stops, and nothing else. -/
theorem next_limits {x : Event} (hhand : x ≠ .hand) (hstop : ∀ c, x ≠ .stop c) (f : Flow)
    (limits : RunLimits) : ({ f with limits } : Flow).next x = { f.next x with limits } := by
  obtain ⟨supply, stage, handoff, dispatch, before, summary⟩ := f
  unfold next
  cases x with
  | pass nanos => rfl
  | supply x =>
    dsimp only
    by_cases hallowed : stage.allows x = true
    · rw [if_pos hallowed, if_pos hallowed]
    · rw [if_neg hallowed, if_neg hallowed]
  | take =>
    cases stage with
    | selecting =>
      dsimp only
      cases supply.interplay.engine.output.receive.1 <;> rfl
    | handing set => rfl
    | stopped c => rfl
  | hand => exact absurd rfl hhand
  | stop c => exact absurd rfl (hstop c)
  | fetch =>
    dsimp only
    split <;> rfl
  | hangUp =>
    cases stage with
    | selecting => rfl
    | handing set => rfl
    | stopped c =>
      dsimp only
      cases handoff.waiting.isEmpty <;> rfl
  | serve x =>
    dsimp only
    cases x.isOwn <;> rfl

theorem after_limits {xs : List Event} (h : ∀ x ∈ xs, x ≠ .hand ∧ ∀ c, x ≠ .stop c) (f : Flow)
    (limits : RunLimits) : ({ f with limits } : Flow).after xs = { f.after xs with limits } := by
  induction xs generalizing f with
  | nil => rfl
  | cons x rest ih =>
    obtain ⟨⟨hhand, hstop⟩, hrest⟩ := List.forall_mem_cons.1 h
    change (({ f with limits } : Flow).next x).after rest = _
    rw [next_limits hhand hstop]
    exact ih hrest (f.next x)

/-! ## Accounts -/

/-- The accounts of a run of a blueprint with limits. -/
structure Accounts (b : Blueprint) (limits : RunLimits) (f : Flow) : Prop where
  published_eq : f.result.published = f.result.rounds.total
  kinds_eq : f.result.rounds.total = f.result.rounds.complete + f.result.rounds.timeout
  rejected_le : f.result.rejected ≤ f.result.received
  /-- The rounds that count as published are sets that the synchronizer published. -/
  taken_length : f.supply.received.length = f.result.published
  taken_sublist : f.supply.received.Sublist (publishedIn f.supply.interplay.turns)
  limit_kept : ∀ m, limits.rounds? = some m → 0 < m → f.result.published ≤ m
  limit_reached : f.stage = .stopped .rounds →
    ∃ m, limits.rounds? = some m ∧ (0 < m → f.result.published = m)
  /-- Each sink has its accounts with the dispatcher, and what it wrote are rounds that count as
  published, one after the other. -/
  lanes : ∀ (i : Nat) l p, f.dispatch.lanes[i]? = some l → b.sinks[i]? = some p →
    f.dispatch.Account p.capacity i l ∧ l.written.Sublist f.supply.received ∧
      (l.written.map SyncedSet.roundId).Pairwise (· < ·)
  /-- Once all sinks have been reported, the loop has stopped, and no set is missing. -/
  finished : f.dispatch.Finished →
    (∃ c, f.stage = .stopped c) ∧ f.dispatch.received = f.supply.received ∧
    f.result.deliveries.map Prod.fst = b.sinks.map (·.name) ∧
    ∀ e ∈ f.result.deliveries,
      e.2.written + e.2.failed + e.2.dropped = f.result.published

theorem Sound.accounts {b : Blueprint}
    (h : Sound b.synchronizer (b.sinks.map fun p => (p.name, p.capacity)) limits f) :
    f.Accounts b limits := by
  have htaken : f.supply.received.Sublist (publishedIn f.supply.interplay.turns) :=
    (List.sublist_append_left _ _).trans h.ledger.order
  have hfetched : f.dispatch.received.Sublist f.supply.received := by
    rw [← h.taken, List.append_assoc]
    exact List.sublist_append_left _ _
  have hwithin := h.within
  exact {
    published_eq := h.total_eq.symm
    kinds_eq := h.kinds_eq
    rejected_le := h.rejected_le
    taken_length := h.published_eq.symm
    taken_sublist := htaken
    limit_kept := fun m hm hpos => (hwithin.le hm).trans_eq (Nat.max_eq_left hpos)
    limit_reached := by
      intro hstage
      rw [hstage] at hwithin
      obtain ⟨m, hm, heq⟩ := hwithin
      exact ⟨m, hm, fun hpos => heq.trans (Nat.max_eq_left hpos)⟩
    lanes := by
      intro i l p hl hp
      have hsink : (b.sinks.map fun p => (p.name, p.capacity))[i]? = some (p.name, p.capacity) := by
        rw [List.getElem?_map, hp]
        rfl
      have haccount := h.dispatch.account hl hsink
      have hwritten : l.written.Sublist f.supply.received :=
        haccount.written_sublist.trans (haccount.passed_sublist.trans hfetched)
      refine ⟨haccount, hwritten, ?_⟩
      have hids := (hwritten.trans htaken).map SyncedSet.roundId
      rw [h.ledger.ids] at hids
      exact List.pairwise_lt_range.sublist hids
    finished := by
      intro hfinished
      obtain ⟨⟨c, hstage⟩, hempty⟩ := h.hung ⟨_, Or.inl hfinished⟩
      have hall : f.dispatch.received = f.supply.received := by
        have htaken := h.taken
        rw [hempty, hstage] at htaken
        simpa [Stage.inHand] using htaken
      obtain ⟨hnames, htotals⟩ := h.dispatch.report hfinished
      refine ⟨⟨c, hstage⟩, hall, ?_, fun e he => ?_⟩
      · rw [List.map_map] at hnames
        exact hnames
      · change _ = f.summary.published
        rw [(htotals e he).2, hall, h.published_eq] }

/-- However the parts of a run take turns, its accounts are right, and when its loop has stopped it can
be finished. A limit of rounds that comes from the command line lets some be published, for there zero
means no limit. And a run that comes to its end is one of these interleavings, with the same summary. -/
theorem run_accounted {b : Blueprint} {n : Nat} {d d' : Disk} {r : Run}
    (hbegin : Run.begin b limits n d = (.ok r, d')) :
    (∀ xs, let f := (ofRun r).after xs
      f.Accounts b limits ∧ ∀ c, f.stage = .stopped c → ∃ ys, (f.after ys).dispatch.Finished) ∧
    (∀ o : RunOptions, limits = o.limits → ∀ m, limits.rounds? = some m → m = o.maxRounds ∧ 0 < m) ∧
    ∀ k r', r.advance k = some r' → r'.ended = true →
      ∃ xs, ((ofRun r).after xs).dispatch.Finished ∧
        ((ofRun r).after xs).result = r'.finish.1 := by
  have hs := (begun_of_begin hbegin).sound
  refine ⟨fun xs => ⟨(hs.after xs).accounts, fun c => exists_finished (hs.after xs)⟩, ?_,
    fun k r' => finish_interleaved hbegin⟩
  rintro o rfl m hm
  change RunOptions.unlessZero o.maxRounds = some m at hm
  unfold RunOptions.unlessZero at hm
  split at hm
  · exact absurd hm nofun
  · next hsome =>
    obtain rfl := Option.some.inj hm
    exact ⟨rfl, Nat.pos_of_ne_zero hsome⟩

/-- Two lidars, and a sink with room for two sets. -/
def paired : Blueprint where
  synchronizer := .pair
  sinks := [{ name := "log", kind := .log, capacity := 2 }]

/-- A run of the two lidars, which deliver nothing by themselves. -/
def pairedRun (limits : RunLimits) : Run where
  pool := { sources := [], channel := .ofCapacity 256 }
  synchronizer := ⟨.ofSettings .pair (.ofTransforms []), .idle, 0⟩
  dispatcher := { lines := [.ofCapacity "log" 2 .log] }
  surroundings := { disk := .empty }
  limits
  summary := { sources := 0, sinks := 1 }

theorem begin_paired (limits : RunLimits) :
    Run.begin paired limits 256 .empty = (.ok (pairedRun limits), .empty) := by
  have hpool : SourcePool.ofSources paired.sources 256 =
      .ok { sources := [], channel := .ofCapacity 256 } := rfl
  have hstart : Synchronizer.start paired.synchronizer (.ofTransforms paired.frames) = .ok _ :=
    Synchronizer.start_eq_ok_iff.2 ⟨SyncSettings.pair_valid, rfl⟩
  unfold Run.begin
  rw [hpool, hstart]
  rfl

/-- Two clouds of one topic, until the deadline of the round has come. -/
def overdue : List Event :=
  [.supply .acquire, .supply (.arrive "/left" (.ofPoints 0 "left" [])), .supply .release,
    .supply .acquire, .supply (.arrive "/left" (.ofPoints 1 "left" [])), .supply .post,
    .supply .release, .supply .look, .pass 100000000, .supply .wake]

/-- The round is closed. -/
def timedOut : List Event := overdue ++ [.supply .attempt]

/-- The set of the round is published, and goes to the sink. -/
def delivered : List Event :=
  [.take, .hand, .fetch, .serve .offer, .serve (.work 0 .take), .hangUp, .serve .close,
    .serve (.work 0 (.finish true)), .serve (.work 0 .stop), .serve .collect]

/-- The run of the two lidars without limits, when the round is overdue. -/
def overdueFlow : Flow := (ofRun (pairedRun {})).after overdue

/-- When the round has been closed, under any limits. -/
def timedOutFlow (limits : RunLimits) : Flow :=
  { overdueFlow.next (.supply .attempt) with limits }

theorem after_timedOut (limits : RunLimits) :
    (ofRun (pairedRun limits)).after timedOut = timedOutFlow limits := by
  have hwaits : ∀ x ∈ timedOut, x ≠ .hand ∧ ∀ c, x ≠ .stop c := by
    simp [timedOut, overdue]
  exact after_limits hwaits (ofRun (pairedRun {})) limits

/-- The round that is overdue is built. -/
theorem exists_waiting (limits : RunLimits) : ∃ set,
    (timedOutFlow limits).supply.interplay.engine.output.waiting = [set] := by
  have hbuilt : (overdueFlow.supply.interplay.engine.fire 100000000).2.turn.set?.isSome := by
    apply Engine.fire_built
    · rfl
    · intro x hx
      have hx : x ∈ [(0 : Float)] := hx
      rw [List.mem_singleton.1 hx]
      rfl
  obtain ⟨set, hset⟩ := Option.isSome_iff_exists.1 hbuilt
  have hattempt : (timedOutFlow limits).supply.interplay.engine =
      (overdueFlow.supply.interplay.engine.fire 100000000).2.engine := by
    rfl
  refine ⟨set, ?_⟩
  rw [hattempt]
  cases overdueFlow.supply.interplay.engine.fire_sends 100000000 with
  | quiet built rounds output drops => exact absurd (built.symm.trans hset) nofun
  | built built id rounds output drops =>
    rw [output]
    obtain rfl := Option.some.inj (built.symm.trans hset)
    rfl

/-- A round is published and delivered, which ends a run that may publish no more than one. -/
theorem after_delivered (limits : RunLimits) (hlimit : limits.rounds?.any (· ≤ 1) = true) :
    let f := (ofRun (pairedRun limits)).after (timedOut ++ delivered)
    f.stage = .stopped .rounds ∧ f.result.published = 1 ∧ f.dispatch.Finished := by
  intro f
  obtain ⟨set, hset⟩ := exists_waiting limits
  have hroom : 0 < overdueFlow.handoff.capacity := by decide
  have hfull : ((timedOutFlow limits).limits.rounds?.any
      (· ≤ (timedOutFlow limits).summary.published + 1)) = true := hlimit
  have hpublish := after_publish (f := timedOutFlow limits) rfl rfl hroom rfl rfl
    (congrArg List.head? hset)
  rw [if_pos hfull] at hpublish
  have hafter : f = ((timedOutFlow limits).after [.take, .hand, .fetch]).after
      (delivered.drop 3) := by
    rw [← after_timedOut, ← after_append, ← after_append]
    rfl
  rw [hafter, hpublish]
  exact ⟨rfl, rfl, rfl⟩

/-- The accounts of the run that may publish one round. -/
theorem run_accounted_paired :
    Run.begin paired { rounds? := some 1 } 256 .empty
      = (.ok (pairedRun { rounds? := some 1 }), .empty) ∧
    let f := (ofRun (pairedRun { rounds? := some 1 })).after (timedOut ++ delivered)
    f.dispatch.Finished ∧ f.result.published = 1 ∧ f.result.rounds.total = 1 ∧
      f.result.deliveries.map Prod.fst = ["log"] ∧
      ∀ e ∈ f.result.deliveries, e.2.written + e.2.failed + e.2.dropped = 1 := by
  obtain ⟨hstage, -, hfinished⟩ := after_delivered { rounds? := some 1 } rfl
  obtain ⟨hruns, -⟩ := run_accounted (begin_paired { rounds? := some 1 })
  obtain ⟨haccounts, -⟩ := hruns (timedOut ++ delivered)
  obtain ⟨m, hm, hreached⟩ := haccounts.limit_reached hstage
  obtain rfl := Option.some.inj hm
  have hone := hreached Nat.one_pos
  obtain ⟨-, -, hnames, htotals⟩ := haccounts.finished hfinished
  exact ⟨begin_paired _, hfinished, hone, haccounts.published_eq.symm.trans hone, hnames,
    fun e he => (htotals e he).trans hone⟩

/-- Under a limit of no rounds, one is published, and then the limit ends the run. -/
theorem run_exceeds_zero :
    paired.validate = .ok () ∧
    Run.begin paired { rounds? := some 0 } 256 .empty
      = (.ok (pairedRun { rounds? := some 0 }), .empty) ∧
    let f := (ofRun (pairedRun { rounds? := some 0 })).after (timedOut ++ delivered)
    f.dispatch.Finished ∧ f.stage = .stopped .rounds ∧ 0 < f.result.published := by
  obtain ⟨hstage, hone, hfinished⟩ := after_delivered { rounds? := some 0 } rfl
  exact ⟨by rfl, begin_paired _, hfinished, hstage, hone ▸ Nat.one_pos⟩

end Flow

end LidarSync
