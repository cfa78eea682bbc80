import LidarSync.Proofs.Outbox
import LidarSync.Source.Pool

/-!
# What deliveries make of a pool

A delivery that has a turn sends what is due and then waits again, as the delivery it is some messages
later, or it has ended (`SourcePool.run_cases`). Whatever turns deliveries have, one after the other, the
other deliveries stay as they are, and those of a source that is running and has a receiver never end
(`SourcePool.Adds`). Once all have had their turns, each is ahead of the clock, or the channel is full
(`SourcePool.settle_ahead`, `SourcePool.settle_full`).
-/

namespace LidarSync

/-- A delivery as it is some messages later. -/
def SourceTask.later : SourceTask → Nat → SourceTask
  | t, 0 => t
  | t, n + 1 => later t.next n

theorem SourceTask.later_later (t : SourceTask) (m n : Nat) :
    (t.later m).later n = t.later (m + n) := by
  induction m generalizing t with
  | zero => rw [Nat.zero_add]; rfl
  | succ m ih => rw [Nat.succ_add]; exact ih t.next

theorem SourceTask.due_later (t : SourceTask) (n : Nat) :
    (t.later n).due = t.due + n * t.period := by
  induction n generalizing t with
  | zero => rw [Nat.zero_mul]; rfl
  | succ n ih =>
    have hnext : (t.next.later n).due = t.due + t.period + n * t.period := ih t.next
    rw [Nat.succ_mul, Nat.add_comm (n * t.period), ← Nat.add_assoc]
    exact hnext

namespace SourcePool

variable {p q r : SourcePool} {k : Option Topic} {t : SourceTask} {ts us : List SourceTask}
  {m : Inbound} {now : Instant} {promised i n : Nat}

/-! ## What waits in a pool -/

/-- All deliveries, those first that wait for their time. -/
def tasks (p : SourcePool) : List SourceTask := p.idle ++ p.blocked.map Prod.fst

/-- How many of some deliveries are of a source. -/
def countOf (k : Option Topic) (ts : List SourceTask) : Nat := ts.countP (·.source.topic? == k)

/-- How many deliveries of a source have not ended. -/
def underWay (p : SourcePool) (k : Option Topic) : Nat := countOf k p.tasks

/-- How many messages have been sent. -/
def sent (p : SourcePool) : Nat := p.counts.clouds + p.counts.velocity

/-- A source is running, and there is someone to receive its messages. -/
structure Live (p : SourcePool) (k : Option Topic) : Prop where
  running : p.isRunning k = true
  receiver : p.channel.closed = false

/-- What deliveries leave of a pool: messages are only added, and no source is stopped while there is a
receiver. -/
structure Carries (p q : SourcePool) : Prop where
  closed : q.channel.closed = p.channel.closed
  capacity : q.channel.capacity = p.channel.capacity
  waiting : p.channel.waiting.length ≤ q.channel.waiting.length
  sent : p.sent ≤ q.sent
  running : p.channel.closed = false → q.running = p.running

namespace Carries

theorem refl (p : SourcePool) : Carries p p := ⟨rfl, rfl, Nat.le_refl _, Nat.le_refl _, fun _ => rfl⟩

theorem trans (h : Carries p q) (h' : Carries q r) : Carries p r where
  closed := h'.closed.trans h.closed
  capacity := h'.capacity.trans h.capacity
  waiting := Nat.le_trans h.waiting h'.waiting
  sent := Nat.le_trans h.sent h'.sent
  running hopen := (h'.running (h.closed.trans hopen)).trans (h.running hopen)

theorem live (h : Carries p q) (hlive : p.Live k) : q.Live k := by
  refine ⟨?_, h.closed.trans hlive.receiver⟩
  unfold isRunning
  rw [h.running hlive.receiver]
  exact hlive.running

end Carries

theorem sent_deliver (p : SourcePool) (m : Inbound) : (p.deliver m).sent = p.sent + 1 := by
  cases m with
  | cloud topic c => exact Nat.add_right_comm p.counts.clouds 1 p.counts.velocity
  | velocity v => rfl

theorem carries_deliver (p : SourcePool) (m : Inbound) : Carries p (p.deliver m) := by
  obtain ⟨hclosed, hcapacity, hwaiting⟩ := p.channel.send_frame m
  exact ⟨hclosed, hcapacity, hwaiting, by rw [sent_deliver]; exact Nat.le_succ _, fun _ => rfl⟩

theorem carries_lose (hclosed : p.channel.closed = true) (t : SourceTask) : Carries p (p.lose t) :=
  ⟨rfl, rfl, Nat.le_refl _, Nat.le_refl _, fun hopen => absurd (hopen.symm.trans hclosed) nofun⟩

theorem live_deliver (m : Inbound) : (p.deliver m).Live k ↔ p.Live k := by
  have hclosed := (p.carries_deliver m).closed
  exact ⟨fun h => ⟨h.running, hclosed ▸ h.receiver⟩, fun h => ⟨h.running, hclosed.trans h.receiver⟩⟩

/-! ## One turn -/

theorem carries_run (now : Instant) (promised : Nat) (t : SourceTask) (p : SourcePool) :
    Carries p (run now promised t p) := by
  fun_induction run now promised t p with
  | case1 t p hdue hrunning hclosed => exact carries_lose hclosed t
  | case2 t p hdue hrunning hopen hroom ih => exact (p.carries_deliver _).trans ih
  | case3 t p => exact ⟨rfl, rfl, Nat.le_refl _, Nat.le_refl _, fun _ => rfl⟩
  | case4 t p => exact .refl p
  | case5 t p => exact ⟨rfl, rfl, Nat.le_refl _, Nat.le_refl _, fun _ => rfl⟩

/-- What becomes of a delivery that has a turn: it is ahead of the clock, or finds no room, or it has
ended, since its source is stopped or there is no receiver. -/
theorem run_cases (now : Instant) (promised : Nat) (t : SourceTask) (p : SourcePool) :
    (∃ n, (run now promised t p).idle = p.idle ++ [t.later n] ∧
      (run now promised t p).blocked = p.blocked ∧ now < (t.later n).due) ∨
    (∃ n m, (run now promised t p).idle = p.idle ∧
      (run now promised t p).blocked = p.blocked ++ [(t.later n, m)] ∧
      p.channel.capacity ≤ (run now promised t p).channel.waiting.length + promised) ∨
    (run now promised t p).idle = p.idle ∧ (run now promised t p).blocked = p.blocked ∧
      ¬ p.Live t.source.topic? := by
  fun_induction run now promised t p with
  | case1 t p hdue hrunning hclosed =>
    exact Or.inr (Or.inr ⟨rfl, rfl, fun hlive => absurd (hlive.receiver.symm.trans hclosed) nofun⟩)
  | case2 t p hdue hrunning hopen hroom ih =>
    rw [live_deliver, (p.carries_deliver _).capacity] at ih
    rcases ih with ⟨n, hidle, hblocked, hahead⟩ | ⟨n, m, hidle, hblocked, hfull⟩ | ⟨-, -, hended⟩
    · exact Or.inl ⟨n + 1, hidle, hblocked, hahead⟩
    · exact Or.inr (Or.inl ⟨n + 1, m, hidle, hblocked, hfull⟩)
    · exact absurd ⟨hrunning, Bool.eq_false_iff.2 hopen⟩ hended
  | case3 t p hdue hrunning hopen hfull =>
    exact Or.inr (Or.inl ⟨0, _, rfl, rfl, Nat.le_of_not_lt hfull⟩)
  | case4 t p hdue hstopped =>
    exact Or.inr (Or.inr ⟨rfl, rfl, fun hlive => hstopped hlive.running⟩)
  | case5 t p hearly => exact Or.inl ⟨0, rfl, rfl, Nat.lt_of_not_le hearly⟩

/-- A delivery whose time has come sends a message, where there is room for it. -/
theorem sent_lt_run (hdue : t.due ≤ now) (hlive : p.Live t.source.topic?)
    (hroom : p.channel.waiting.length + promised < p.channel.capacity) :
    p.sent < (run now promised t p).sent := by
  rw [run, if_pos hdue, if_pos hlive.running, if_neg (Bool.eq_false_iff.1 hlive.receiver),
    if_pos hroom]
  refine Nat.lt_of_lt_of_le ?_ (carries_run now promised t.next _).sent
  rw [sent_deliver]
  exact Nat.lt_succ_self _

/-- Without a receiver nothing is sent. -/
theorem sent_run_of_closed (hclosed : p.channel.closed = true) :
    (run now promised t p).sent = p.sent := by
  rw [run]
  split
  · split
    · rfl
    · rfl
  · rfl

/-! ## Several turns -/

theorem countOf_append (k : Option Topic) (ts us : List SourceTask) :
    countOf k (ts ++ us) = countOf k ts + countOf k us := List.countP_append

theorem countOf_perm (h : ts.Perm us) : countOf k ts = countOf k us := h.countP_eq _

theorem source_later (t : SourceTask) (n : Nat) : (t.later n).source = t.source := by
  induction n generalizing t with
  | zero => rfl
  | succ n ih => exact ih t.next

theorem countOf_later (k : Option Topic) (t : SourceTask) (n : Nat) :
    countOf k [t.later n] = countOf k [t] := by
  unfold countOf
  rw [List.countP_singleton, List.countP_singleton, source_later]

theorem countOf_singleton_eq_zero (h : t.source.topic? ≠ k) : countOf k [t] = 0 := by
  unfold countOf
  rw [List.countP_singleton, if_neg (by simpa using h)]

/-- A pool has what it had, and besides what deliveries have become that had turns. -/
structure Adds (ts : List SourceTask) (p q : SourcePool) : Prop where
  carries : Carries p q
  kept : p.tasks ⊆ q.tasks
  underWay_le : ∀ k, q.underWay k ≤ countOf k ts + p.underWay k
  goOn : ∀ k, p.Live k → q.underWay k = countOf k ts + p.underWay k ∧
    ∀ t ∈ ts, t.source.topic? = k → ∃ n, t.later n ∈ q.tasks

namespace Adds

theorem nil (h : Carries p q) (htasks : q.tasks = p.tasks) : Adds [] p q where
  carries := h
  kept := by rw [htasks]; exact List.Subset.refl _
  underWay_le k := by unfold underWay; rw [htasks]; exact Nat.le_add_left _ _
  goOn k _ := by
    unfold underWay
    rw [htasks]
    exact ⟨(Nat.zero_add _).symm, fun t ht => absurd ht List.not_mem_nil⟩

theorem append (h : Adds ts p q) (h' : Adds us q r) : Adds (ts ++ us) p r where
  carries := h.carries.trans h'.carries
  kept := List.Subset.trans h.kept h'.kept
  underWay_le k := by
    have hfirst := h.underWay_le k
    have hsecond := h'.underWay_le k
    rw [countOf_append]
    omega
  goOn k hlive := by
    obtain ⟨hcount, hall⟩ := h.goOn k hlive
    obtain ⟨hcount', hall'⟩ := h'.goOn k (h.carries.live hlive)
    refine ⟨by rw [hcount', hcount, countOf_append]; omega, fun t ht hk => ?_⟩
    rcases List.mem_append.1 ht with ht | ht
    · obtain ⟨n, hn⟩ := hall t ht hk
      exact ⟨n, h'.kept hn⟩
    · exact hall' t ht hk

/-- A delivery goes on, or it has ended where that can be. -/
theorem one (h : Carries p q)
    (hbecomes : (∃ n, q.tasks.Perm (t.later n :: p.tasks)) ∨ q.tasks = p.tasks ∧ ¬ p.Live t.source.topic?) :
    Adds [t] p q := by
  rcases hbecomes with ⟨n, hperm⟩ | ⟨hsame, hended⟩
  · have hcount (k : Option Topic) : q.underWay k = countOf k [t] + p.underWay k := by
      unfold underWay
      rw [countOf_perm hperm, ← List.singleton_append, countOf_append, countOf_later]
    refine ⟨h, fun u hu => hperm.mem_iff.2 (List.mem_cons_of_mem _ hu),
      fun k => Nat.le_of_eq (hcount k), fun k _ => ⟨hcount k, fun u hu _ => ⟨n, ?_⟩⟩⟩
    obtain rfl := List.mem_singleton.1 hu
    exact hperm.mem_iff.2 List.mem_cons_self
  · have hcount (k : Option Topic) : q.underWay k = p.underWay k := by
      unfold underWay
      rw [hsame]
    refine ⟨h, hsame ▸ List.Subset.refl _, fun k => hcount k ▸ Nat.le_add_left _ _, fun k hlive => ?_⟩
    have hother : t.source.topic? ≠ k := fun hk => hended (hk ▸ hlive)
    refine ⟨by rw [hcount, countOf_singleton_eq_zero hother, Nat.zero_add], fun u hu hk => ?_⟩
    obtain rfl := List.mem_singleton.1 hu
    exact absurd hk hother

end Adds

theorem adds_run (now : Instant) (promised : Nat) (t : SourceTask) (p : SourcePool) :
    Adds [t] p (run now promised t p) := by
  refine .one (carries_run now promised t p) ?_
  unfold tasks
  rcases run_cases now promised t p with ⟨n, hidle, hblocked, -⟩ | ⟨n, m, hidle, hblocked, -⟩
    | ⟨hidle, hblocked, hended⟩
  · rw [hidle, hblocked, List.append_assoc]
    exact Or.inl ⟨n, List.perm_middle⟩
  · rw [hidle, hblocked, List.map_append, ← List.append_assoc]
    exact Or.inl ⟨n, List.perm_append_singleton _ _⟩
  · rw [hidle, hblocked]
    exact Or.inr ⟨rfl, hended⟩

theorem adds_lose (hclosed : p.channel.closed = true) (t : SourceTask) : Adds [t] p (p.lose t) :=
  .one (carries_lose hclosed t)
    (Or.inr ⟨rfl, fun hlive => absurd (hlive.receiver.symm.trans hclosed) nofun⟩)

/-- A delivery sends the message in its hand, and goes on if its source is running. -/
def goOn (now : Instant) (promised : Nat) (t : SourceTask) (m : Inbound) (p : SourcePool) :
    SourcePool :=
  let p := p.deliver m
  if p.isRunning t.source.topic? then run now promised t.next p else p

theorem adds_goOn (now : Instant) (promised : Nat) (t : SourceTask) (m : Inbound) (p : SourcePool) :
    Adds [t] p (goOn now promised t m p) := by
  have hdeliver := p.carries_deliver m
  unfold goOn
  dsimp only
  split
  · have hrun := adds_run now promised t.next (p.deliver m)
    refine ⟨hdeliver.trans hrun.carries, hrun.kept, hrun.underWay_le, fun k hlive => ?_⟩
    obtain ⟨hcount, hall⟩ := hrun.goOn k ((live_deliver m).2 hlive)
    refine ⟨hcount, fun u hu hk => ?_⟩
    obtain rfl := List.mem_singleton.1 hu
    obtain ⟨n, hn⟩ := hall _ (List.mem_singleton_self _) hk
    exact ⟨n + 1, hn⟩
  · next hstopped => exact .one hdeliver (Or.inr ⟨rfl, fun hlive => hstopped hlive.running⟩)

theorem release_cons (now : Instant) (t : SourceTask) (m : Inbound)
    (rest : List (SourceTask × Inbound)) (p : SourcePool) :
    release now ((t, m) :: rest) p = release now rest (goOn now rest.length t m p) := rfl

theorem adds_release (now : Instant) (l : List (SourceTask × Inbound)) (p : SourcePool) :
    Adds (l.map Prod.fst) p (release now l p) := by
  induction l generalizing p with
  | nil => exact .nil (.refl p) rfl
  | cons e rest ih =>
    obtain ⟨t, m⟩ := e
    rw [release_cons]
    exact (adds_goOn now rest.length t m p).append (ih _)

theorem adds_foldl_run (now : Instant) (ts : List SourceTask) (p : SourcePool) :
    Adds ts p (ts.foldl (fun p t => p.run now 0 t) p) := by
  induction ts generalizing p with
  | nil => exact .nil (.refl p) rfl
  | cons t rest ih => exact (adds_run now 0 t p).append (ih _)

theorem adds_foldl_lose (l : List (SourceTask × Inbound)) (hclosed : p.channel.closed = true) :
    Adds (l.map Prod.fst) p (l.foldl (fun p (t, _) => p.lose t) p) := by
  induction l generalizing p with
  | nil => exact .nil (.refl p) rfl
  | cons e rest ih => exact (adds_lose hclosed e.1).append (ih hclosed)

/-! ## Room in the channel -/

/-- A delivery waits for room only where the channel is full, what is promised to others counted in. -/
def Room (promised : Nat) (p : SourcePool) : Prop :=
  p.blocked ≠ [] → p.channel.capacity ≤ p.channel.waiting.length + promised

theorem Room.deliver (hopen : p.channel.closed = false) (hroom : p.Room (promised + 1)) (m : Inbound) :
    (p.deliver m).Room promised := by
  intro hblocked
  have hfull := hroom hblocked
  show (p.channel.send m).2.capacity ≤ (p.channel.send m).2.waiting.length + promised
  rcases p.channel.send_of_open hopen m with ⟨-, hsend⟩ | ⟨hcapacity, hsend⟩
  · rw [hsend]
    dsimp only
    rw [List.length_append, List.length_singleton]
    omega
  · rw [hsend]
    dsimp only
    omega

theorem Room.run (hroom : p.Room promised) (now : Instant) (t : SourceTask) :
    (run now promised t p).Room promised := by
  have hcarries := carries_run now promised t p
  intro hblocked
  rw [hcarries.capacity]
  rcases run_cases now promised t p with ⟨n, -, hsame, -⟩ | ⟨n, m, -, -, hfull⟩ | ⟨-, hsame, -⟩
  · rw [hsame] at hblocked
    exact Nat.le_trans (hroom hblocked) (Nat.add_le_add_right hcarries.waiting _)
  · exact hfull
  · rw [hsame] at hblocked
    exact Nat.le_trans (hroom hblocked) (Nat.add_le_add_right hcarries.waiting _)

theorem Room.goOn (hopen : p.channel.closed = false) (hroom : p.Room (promised + 1)) (now : Instant)
    (t : SourceTask) (m : Inbound) : (goOn now promised t m p).Room promised := by
  have hdeliver := hroom.deliver hopen m
  unfold SourcePool.goOn
  dsimp only
  split
  · exact hdeliver.run now t.next
  · exact hdeliver

theorem Room.release (l : List (SourceTask × Inbound)) (hopen : p.channel.closed = false)
    (hroom : p.Room l.length) (now : Instant) : (release now l p).Room 0 := by
  induction l generalizing p with
  | nil => exact hroom
  | cons e rest ih =>
    obtain ⟨t, m⟩ := e
    rw [release_cons]
    exact ih ((adds_goOn now rest.length t m p).carries.closed.trans hopen) (hroom.goOn hopen now t m)

theorem blocked_foldl_lose (l : List (SourceTask × Inbound)) (p : SourcePool) :
    (l.foldl (fun p (t, _) => p.lose t) p).blocked = p.blocked := by
  induction l generalizing p with
  | nil => rfl
  | cons e rest ih => exact ih (p.lose e.1)

theorem room_settleBlocked (p : SourcePool) (now : Instant) : (p.settleBlocked now).Room 0 := by
  unfold settleBlocked
  dsimp only
  by_cases hclosed : p.channel.closed = true
  · rw [if_pos hclosed]
    intro hblocked
    rw [blocked_foldl_lose] at hblocked
    exact absurd rfl hblocked
  · rw [if_neg hclosed]
    have hopen := Bool.eq_false_iff.2 hclosed
    refine Room.release (p := { p with blocked := p.blocked.drop _ }) _ hopen (fun hleft => ?_) now
    dsimp only at hleft ⊢
    have hlong := List.length_lt_of_drop_ne_nil hleft
    rw [List.length_take, Nat.min_eq_left (Nat.le_of_lt hlong)]
    omega

theorem room_foldl_run (ts : List SourceTask) (hroom : p.Room 0) (now : Instant) :
    (ts.foldl (fun p t => p.run now 0 t) p).Room 0 := by
  induction ts generalizing p with
  | nil => exact hroom
  | cons t rest ih => exact ih (hroom.run now t)

theorem ahead_foldl_run (ts : List SourceTask) (h : ∀ t ∈ p.idle, now < t.due) :
    ∀ t ∈ (ts.foldl (fun p t => p.run now 0 t) p).idle, now < t.due := by
  induction ts generalizing p with
  | nil => exact h
  | cons t rest ih =>
    refine ih fun u hu => ?_
    rcases run_cases now 0 t p with ⟨n, hidle, -, hahead⟩ | ⟨n, m, hidle, -, -⟩ | ⟨hidle, -, -⟩
    · rw [hidle] at hu
      rcases List.mem_append.1 hu with hu | hu
      · exact h u hu
      · exact List.mem_singleton.1 hu ▸ hahead
    · exact h u (hidle ▸ hu)
    · exact h u (hidle ▸ hu)

theorem settle_eq (p : SourcePool) (now : Instant) :
    p.settle now = ((p.settleBlocked now).idle.filter (·.due ≤ now)).foldl (fun p t => p.run now 0 t)
      { p.settleBlocked now with
        idle := (p.settleBlocked now).idle.filter fun t => !decide (t.due ≤ now) } := by
  unfold settle
  dsimp only
  rw [List.partition_eq_filter_filter]
  rfl

/-- Once all deliveries have done what they can, those that wait for their time are ahead of the clock. -/
theorem settle_ahead (p : SourcePool) (now : Instant) : ∀ t ∈ (p.settle now).idle, now < t.due := by
  rw [settle_eq]
  refine ahead_foldl_run _ fun t ht => ?_
  have hlate := (List.mem_filter.1 ht).2
  simpa using hlate

/-- Once all deliveries have done what they can, one that waits for room has found the channel full. -/
theorem settle_full (p : SourcePool) (now : Instant) :
    (p.settle now).blocked ≠ [] → (p.settle now).channel.isFull = true := by
  have hroom : (p.settle now).Room 0 := by
    rw [settle_eq]
    refine room_foldl_run _ ?_ now
    exact room_settleBlocked p now
  exact fun hblocked => decide_eq_true (hroom hblocked)

end SourcePool

end LidarSync
