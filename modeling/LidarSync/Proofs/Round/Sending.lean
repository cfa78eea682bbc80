import LidarSync.Proofs.Metrics.Recorder
import LidarSync.Proofs.Outbox
import LidarSync.Proofs.Round.Status

/-!
# What is sent to the output

Closing a round changes everything at once; `Engine.closeRound_of_aligned` says what the engine is
then. A step that builds a set gives it the next number and sends it to the output queue, where a full
queue turns it away and it is counted; no other step does anything to the numbers, to the queue or to
the count (`Engine.Sends`), except for what is asked of the queue itself.
-/

namespace LidarSync

namespace Engine

variable {e e' f : Engine} {now : Instant} {turn : Turn}

/-- How many sets the output had no room for. -/
def drops (e : Engine) : Nat := e.metrics.total Series.outputDropped

/-! ## Closing a round -/

theorem noteTruncations_eq (e : Engine) (n : Nat) :
    ∃ r, e.noteTruncations n = { e with compensator := e.compensator.note n, metrics := r } ∧
      r.total Series.outputDropped = e.drops := by
  unfold noteTruncations
  split
  · next hn =>
    subst hn
    exact ⟨e.metrics, rfl, rfl⟩
  · refine ⟨e.metrics.count Series.truncations n, rfl, ?_⟩
    have hne : Series.outputDropped ≠ Series.truncations := Series.ne_of_metric (by decide)
    rw [Recorder.total_count, if_neg hne]
    rfl

theorem publish_eq (e : Engine) (s : SyncedSet) :
    ∃ r, e.publish s = { e with output := (e.output.send s).2, metrics := r } ∧
      r.total Series.outputDropped
        = e.drops + if (e.output.send s).1 = .full then 1 else 0 := by
  unfold publish
  split
  · next q hsend =>
    rw [hsend]
    refine ⟨_, rfl, ?_⟩
    unfold Recorder.tick
    rw [Recorder.total_count, if_pos rfl, if_pos rfl]
    rfl
  · next outcome q hfull hsend =>
    rw [hsend]
    refine ⟨e.metrics, rfl, ?_⟩
    rw [if_neg hfull]
    rfl

theorem closeRound_of_lost {trigger : Trigger}
    (h : (e.collector.close trigger).1.alignWith e.transformer e.settings.outputFrame
      e.compensator.history = none) (now : Instant) :
    e.closeRound now trigger = ⟨{ e with collector := (e.collector.close trigger).2 },
      .closed ⟨trigger, (e.collector.close trigger).1, none⟩⟩ := by
  unfold closeRound
  dsimp only
  rw [h]

/-- The engine after a round that was not lost. -/
theorem closeRound_of_aligned {trigger : Trigger} {aligned : AlignedRound}
    (h : (e.collector.close trigger).1.alignWith e.transformer e.settings.outputFrame
      e.compensator.history = some aligned) (now : Instant) :
    ∃ metrics, e.closeRound now trigger = ⟨{ e with
        compensator := e.compensator.note aligned.truncations
        collector := { (e.collector.close trigger).2 with
          notSynchronized := aligned.notSynchronized }
        rounds := e.rounds + 1
        lastPublish := some now
        diagnostics := .ofMissing e.settings.inputTopics aligned.notSynchronized
        output := (e.output.send (e.setOf now trigger aligned)).2
        metrics },
      .closed ⟨trigger, (e.collector.close trigger).1, some (e.setOf now trigger aligned)⟩⟩ ∧
      metrics.total Series.outputDropped = e.drops +
        if (e.output.send (e.setOf now trigger aligned)).1 = .full then 1 else 0 := by
  unfold closeRound
  dsimp only
  rw [h]
  dsimp only
  obtain ⟨noted, hnoted, hnotedDrops⟩ := e.noteTruncations_eq aligned.truncations
  rw [hnoted]
  obtain ⟨sent, hsent, hsentDrops⟩ := publish_eq
    { e with
      compensator := e.compensator.note aligned.truncations
      collector := { (e.collector.close trigger).2 with
        notSynchronized := aligned.notSynchronized }
      rounds := e.rounds + 1
      lastPublish := some now
      diagnostics := .ofMissing e.settings.inputTopics aligned.notSynchronized
      metrics := noted.round (e.setOf now trigger aligned) } (e.setOf now trigger aligned)
  refine ⟨sent, ?_, ?_⟩
  · rw [← hsent]
    rfl
  · have hround : (noted.round (e.setOf now trigger aligned)).total Series.outputDropped = e.drops := by
      rw [Recorder.total_round, hnotedDrops]
      · exact fun t => Series.ne_of_metric (by simp [Series.outputDropped, Series.rounds])
      · exact fun t => Series.ne_of_metric (by simp [Series.outputDropped, Series.topicMissing])
      · exact fun t => Series.ne_of_metric (by simp [Series.outputDropped, Series.transformFailures])
    rw [hsentDrops]
    exact congrArg (· + _) hround

/-! ## What a step sends -/

/-- A turn that built a set numbered it and sent it; any other turn sent nothing. -/
inductive Sends (e : Engine) (turn : Turn) (e' : Engine) : Prop where
  | quiet (built : turn.set? = none) (rounds : e'.rounds = e.rounds)
      (output : e'.output = e.output) (drops : e'.drops = e.drops)
  | built {set : SyncedSet} (built : turn.set? = some set) (id : set.roundId = e.rounds)
      (rounds : e'.rounds = e.rounds + 1) (output : e'.output = (e.output.send set).2)
      (drops : e'.drops = e.drops + if (e.output.send set).1 = .full then 1 else 0)

theorem Sends.congr (h : Sends f turn e') (hrounds : f.rounds = e.rounds)
    (houtput : f.output = e.output) (hdrops : f.drops = e.drops) : Sends e turn e' := by
  cases h with
  | quiet built rounds output drops =>
    exact .quiet built (rounds.trans hrounds) (output.trans houtput) (drops.trans hdrops)
  | built built id rounds output drops =>
    rw [houtput] at output drops
    rw [hdrops] at drops
    rw [hrounds] at id rounds
    exact .built built id rounds output drops

theorem closeRound_sends (e : Engine) (now : Instant) (trigger : Trigger) :
    Sends e (e.closeRound now trigger).turn (e.closeRound now trigger).engine := by
  cases halign : (e.collector.close trigger).1.alignWith e.transformer e.settings.outputFrame
      e.compensator.history with
  | none =>
    rw [closeRound_of_lost halign]
    exact .quiet rfl rfl rfl rfl
  | some aligned =>
    obtain ⟨metrics, hclose, hdrops⟩ := closeRound_of_aligned halign now
    rw [hclose]
    exact .built rfl rfl rfl rfl hdrops

theorem cloud_sends (e : Engine) (now : Instant) (t : Topic) (c : Cloud) :
    Sends e (e.cloud now t c).2.turn (e.cloud now t c).2.engine := by
  have htick : ∀ s : Series, s.metric ≠ Series.outputDropped.metric →
      (e.metrics.tick s).total Series.outputDropped = e.drops := by
    intro s hs
    exact Recorder.total_tick_of_ne (Series.ne_of_metric hs.symm) e.metrics
  have hreceived := htick (Series.cloudsReceived t)
    (by simp [Series.outputDropped, Series.cloudsReceived])
  unfold Engine.cloud
  split
  · exact .quiet rfl rfl rfl (htick _ (by simp [Series.outputDropped, Series.cloudsRejected]))
  · next packed _ =>
    change Sends e (e.takeIn now t packed).turn (e.takeIn now t packed).engine
    unfold takeIn
    dsimp only
    split
    · exact .quiet rfl rfl rfl hreceived
    · exact (closeRound_sends _ now .complete).congr rfl rfl hreceived
    · exact .quiet rfl rfl rfl hreceived
    · exact .quiet rfl rfl rfl hreceived

theorem fire_sends (e : Engine) (now : Instant) :
    Sends e (e.fire now).2.turn (e.fire now).2.engine := by
  unfold fire
  split
  · exact (closeRound_sends { e with deadline := none } now .timeout).congr rfl rfl rfl
  · exact .quiet rfl rfl rfl rfl

/-! ## Beside the rounds -/

/-- What something beside the rounds makes of the compensator. -/
def Aside.compensator (x : Aside) (c : Compensator) : Compensator :=
  match x with
  | .velocity v => c.record v
  | .compensate start stop => ((c.compensate start stop).map Prod.snd).getD c
  | _ => c

/-- What it makes of the output queue. -/
def Aside.output (x : Aside) (q : Outbox SyncedSet) : Outbox SyncedSet :=
  match x with
  | .receive => q.receive.2
  | .dropReceiver => q.drop
  | _ => q

theorem aside_eq (e : Engine) (x : Aside) :
    ∃ r, e.aside x =
        { e with
          compensator := x.compensator e.compensator
          output := x.output e.output
          metrics := r } ∧
      r.total Series.outputDropped = e.drops := by
  cases x with
  | velocity v =>
    have hne : Series.outputDropped ≠ Series.velocitySamples := Series.ne_of_metric (by decide)
    exact ⟨_, rfl, Recorder.total_tick_of_ne hne e.metrics⟩
  | receive => exact ⟨_, rfl, rfl⟩
  | dropReceiver => exact ⟨_, rfl, rfl⟩
  | compensate start stop =>
    unfold aside Engine.compensate Aside.compensator Compensator.compensate
    dsimp only
    cases e.compensator.history.compensate start stop with
    | none => exact ⟨_, rfl, rfl⟩
    | some c =>
      obtain ⟨r, hnoted, hdrops⟩ := e.noteTruncations_eq (if c.truncated then 1 else 0)
      rw [Option.map_some, Option.map_some, Option.getD_some, hnoted]
      exact ⟨r, rfl, hdrops⟩

end Engine

end LidarSync
