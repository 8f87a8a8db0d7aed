import Muduo.Base.ThreadPool

/-!
# `Base.Correctness.ThreadPool` — every task at most once, and a clean stop

The tasks that were submitted are those dequeued and then those in the queue; a task that was dequeued is with one
worker until it is called (`Tasks`). While a worker waits un-notified, each task in the queue has a worker that was
notified and is on its way, and once `stop` has released the mutex nobody waits un-notified (`Waits`): a worker that
comes to the loop in `take` later finds `running_` false there. From then on each step of a worker brings it nearer
to the end of `runInThread` (`stepsLeft`).
-/

namespace Muduo

open Lib

variable {n : Nat} {α : Type}

namespace WorkerPoint

/-- The task that a worker has and did not call yet. -/
def task : WorkerPoint α → Option (Nat × α)
  | .took task => task
  | _ => none

/-- How many steps a worker is away from the end of `runInThread` if it does not wait and finds `running_` false. -/
def stepsLeft : WorkerPoint α → Nat
  | .locking | .waiting => 4
  | .took _ => 3
  | .executing => 2
  | .loopHead => 1
  | .exited => 0

end WorkerPoint

namespace ThreadPool

variable {s s' : ThreadPool n α} {a : PoolAction n α} {t : Fin n}

/-- **What a turn in `take` can do**: the worker waits, or it leaves with nothing, or with the first task. -/
theorem take_cases (s : ThreadPool n α) (t : Fin n) :
    (s.queue = [] ∧ s.running = true ∧
      s.take t = { s with cond := s.cond.wait t, workers := Function.update s.workers t .waiting }) ∨
    (s.queue = [] ∧ s.running = false ∧ s.take t = { s with workers := Function.update s.workers t (.took none) }) ∨
    ∃ task queue, s.queue = task :: queue ∧
      s.take t = { s with
        queue
        workers := Function.update s.workers t (.took (task.map fun f => (s.dequeued.length, f)))
        dequeued := s.dequeued ++ [task] } := by
  unfold ThreadPool.take
  cases hqueue : s.queue with
  | nil =>
      cases hrunning : s.running with
      | true => exact Or.inl ⟨rfl, rfl, rfl⟩
      | false => exact Or.inr (Or.inl ⟨rfl, rfl, by simp⟩)
  | cons task queue => exact Or.inr (Or.inr ⟨task, queue, rfl, by simp⟩)

/-- **What a worker does with what it took.** -/
theorem exec_call {task : Option (Nat × α)} (ht : s.workers t = .took task) :
    s.exec (.call t) = .ok { s with
      workers := Function.update s.workers t (if task.isSome = true then .executing else .loopHead)
      executed := s.executed ++ task.toList } := by
  simp only [ThreadPool.exec, ht]
  cases task <;> simp

/-! ## Tasks -/

/-- A task that was dequeued is with one worker, until that worker calls it. -/
structure Tasks (s : ThreadPool n α) : Prop where
  fifo : s.submitted = s.dequeued ++ s.queue
  executed : ∀ p ∈ s.executed, s.dequeued[p.1]? = some (some p.2)
  once : (s.executed.map Prod.fst).Nodup
  held : ∀ t p, (s.workers t).task = some p →
    s.dequeued[p.1]? = some (some p.2) ∧ p.1 ∉ s.executed.map Prod.fst
  apart : ∀ t t' p p', (s.workers t).task = some p → (s.workers t').task = some p' → p.1 = p'.1 → t = t'

/-- A step after which no worker has a task that it did not have before. -/
theorem Tasks.frame (h : s.Tasks) (hfifo : s'.submitted = s'.dequeued ++ s'.queue)
    (hdequeued : s'.dequeued = s.dequeued) (hexecuted : s'.executed = s.executed)
    (hworkers : ∀ t p, (s'.workers t).task = some p → (s.workers t).task = some p) : s'.Tasks where
  fifo := hfifo
  executed := by
    rw [hexecuted, hdequeued]
    exact h.executed
  once := by
    rw [hexecuted]
    exact h.once
  held t p ht := by
    rw [hexecuted, hdequeued]
    exact h.held t p (hworkers t p ht)
  apart t t' p p' ht ht' := h.apart t t' p p' (hworkers t p ht) (hworkers t' p' ht')

/-- A worker moves on, to where it has no task. -/
theorem task_update {p : WorkerPoint α} (hp : p.task = none) (u : Fin n) (q : Nat × α)
    (h : (Function.update s.workers t p u).task = some q) : (s.workers u).task = some q := by
  by_cases hu : u = t
  · subst hu
    rw [Function.update_self, hp] at h
    cases h
  · rwa [Function.update_of_ne hu] at h

/-- A worker takes the first task. -/
theorem Tasks.pop (h : s.Tasks) {task : Option α} {queue : List (Option α)} (hqueue : s.queue = task :: queue) :
    Tasks { s with
      queue
      workers := Function.update s.workers t (.took (task.map fun f => (s.dequeued.length, f)))
      dequeued := s.dequeued ++ [task] } := by
  have hearlier : ∀ {k f}, s.dequeued[k]? = some (some f) →
      k < s.dequeued.length ∧ (s.dequeued ++ [task])[k]? = some (some f) := by
    intro k f hk
    have hlt := (List.getElem?_eq_some_iff.mp hk).1
    exact ⟨hlt, (List.getElem?_append_left hlt).trans hk⟩
  -- the worker has the new task, the others have what they had
  have hcases : ∀ u p, (Function.update s.workers t (.took (task.map fun f => (s.dequeued.length, f))) u).task
      = some p → (u = t ∧ p.1 = s.dequeued.length ∧ task = some p.2) ∨ (u ≠ t ∧ (s.workers u).task = some p) := by
    intro u p hp
    by_cases hu : u = t
    · subst hu
      rw [Function.update_self] at hp
      obtain ⟨f, hf, rfl⟩ := Option.map_eq_some_iff.mp hp
      exact Or.inl ⟨rfl, rfl, hf⟩
    · rw [Function.update_of_ne hu] at hp
      exact Or.inr ⟨hu, hp⟩
  refine ⟨?_, fun p hp => (hearlier (h.executed p hp)).2, h.once, ?_, ?_⟩
  · show s.submitted = (s.dequeued ++ [task]) ++ queue
    rw [h.fifo, hqueue, List.append_assoc, List.singleton_append]
  · intro u p hp
    rcases hcases u p hp with ⟨-, hnumber, htask⟩ | ⟨-, hp⟩
    · refine ⟨?_, ?_⟩
      · rw [hnumber, htask]
        exact List.getElem?_concat_length
      · intro hmem
        obtain ⟨q, hq, hqp⟩ := List.mem_map.mp hmem
        have hlt := (hearlier (h.executed q hq)).1
        omega
    · obtain ⟨hget, hnew⟩ := h.held u p hp
      exact ⟨(hearlier hget).2, hnew⟩
  -- two workers with one number: both had it before, or both are `t`
  · intro u u' p p' hp hp' heq
    rcases hcases u p hp with ⟨rfl, hnumber, -⟩ | ⟨-, hold⟩
    · rcases hcases u' p' hp' with ⟨rfl, -, -⟩ | ⟨-, hold'⟩
      · rfl
      · have hlt := (hearlier (h.held u' p' hold').1).1
        omega
    · rcases hcases u' p' hp' with ⟨rfl, hnumber, -⟩ | ⟨-, hold'⟩
      · have hlt := (hearlier (h.held u p hold).1).1
        omega
      · exact h.apart u u' p p' hold hold' heq

theorem Tasks.take (h : s.Tasks) : (s.take t).Tasks := by
  obtain ⟨-, -, htake⟩ | ⟨-, -, htake⟩ | ⟨task, queue, hqueue, htake⟩ := take_cases s t
  · rw [htake]
    exact h.frame h.fifo rfl rfl (task_update rfl)
  · rw [htake]
    exact h.frame h.fifo rfl rfl (task_update rfl)
  · rw [htake]
    exact h.pop hqueue

/-- A worker calls its task. -/
theorem Tasks.call (h : s.Tasks) {k : Nat} {f : α} (ht : s.workers t = .took (some (k, f))) :
    Tasks { s with
      workers := Function.update s.workers t .executing
      executed := s.executed ++ [(k, f)] } := by
  have htask : (s.workers t).task = some (k, f) := by rw [ht]; rfl
  obtain ⟨hget, hnew⟩ := h.held t _ htask
  refine ⟨h.fifo, ?_, ?_, ?_, ?_⟩
  · intro p hp
    rcases List.mem_append.mp hp with hp | hp
    · exact h.executed p hp
    · rw [List.mem_singleton.mp hp]
      exact hget
  · show ((s.executed ++ [(k, f)]).map Prod.fst).Nodup
    rw [List.map_append, List.map_singleton]
    exact List.nodup_append.mpr ⟨h.once, List.nodup_singleton _, fun j hj j' hj' heq => by
      rw [List.mem_singleton.mp hj'] at heq
      exact hnew (heq ▸ hj)⟩
  · intro u p hp
    -- `t` has no task any more, and no other worker had this one
    have hu : u ≠ t := by
      rintro rfl
      simp [WorkerPoint.task] at hp
    have hp := task_update rfl u p hp
    obtain ⟨hget', hnew'⟩ := h.held u p hp
    refine ⟨hget', fun hmem => ?_⟩
    rw [List.map_append, List.mem_append, List.map_singleton, List.mem_singleton] at hmem
    rcases hmem with hmem | heq
    · exact hnew' hmem
    · exact hu (h.apart u t p _ hp htask heq)
  · exact fun u u' p p' hp hp' => h.apart u u' p p' (task_update rfl u p hp) (task_update rfl u' p' hp')

theorem Tasks.exec (h : s.Tasks) (ha : s.enabled a) (hs' : s.exec a = .ok s') : s'.Tasks := by
  cases a with
  | run task u =>
      obtain rfl := Except.ok.inj hs'
      unfold run
      split
      · exact h.frame h.fifo rfl rfl fun _ _ => id
      · refine h.frame ?_ rfl rfl fun _ _ => id
        show s.submitted ++ [task] = s.dequeued ++ (s.queue ++ [task])
        rw [h.fifo, List.append_assoc]
  | readRunning t =>
      obtain rfl := Except.ok.inj hs'
      refine h.frame h.fifo rfl rfl (task_update ?_)
      split <;> rfl
  | take t =>
      obtain rfl := Except.ok.inj hs'
      exact h.take
  | spurious t =>
      obtain rfl := Except.ok.inj hs'
      exact h.frame h.fifo rfl rfl fun _ _ => id
  | resume t =>
      obtain rfl := Except.ok.inj hs'
      have hresumed : Tasks { s with cond := s.cond.resume t } := h.frame h.fifo rfl rfl fun _ _ => id
      exact hresumed.take
  | call t =>
      obtain ⟨task, ht⟩ := ha
      rw [exec_call ht] at hs'
      obtain rfl := Except.ok.inj hs'
      cases task with
      | none => exact h.frame h.fifo rfl (List.append_nil _) (task_update rfl)
      | some p => exact h.call ht
  | taskReturns t =>
      obtain rfl := Except.ok.inj hs'
      exact h.frame h.fifo rfl rfl (task_update rfl)
  | stop =>
      obtain rfl := Except.ok.inj hs'
      exact h.frame h.fifo rfl rfl fun _ _ => id
  | stopNotify =>
      obtain rfl := Except.ok.inj hs'
      exact h.frame h.fifo rfl rfl fun _ _ => id

/-! ## Waiting -/

/-- Who is at the condition variable, and what `stop` has done. -/
structure Waits (s : ThreadPool n α) : Prop where
  members : ∀ t, s.cond.Mem t → s.workers t = .waiting
  covers : s.cond.Covers s.queue.length
  running : s.running = true ↔ s.stopping = .before
  released : s.stopping = .released → s.cond.waiting = ∅

/-- A step of the worker `t`, which is not at the condition variable. -/
theorem Waits.move (h : s.Waits) (ht : s.workers t ≠ .waiting) {p : WorkerPoint α}
    (hcond : s'.cond = s.cond) (hqueue : s'.queue.length ≤ s.queue.length)
    (hworkers : s'.workers = Function.update s.workers t p) (hrunning : s'.running = s.running)
    (hstopping : s'.stopping = s.stopping) : s'.Waits where
  members u hu := by
    rw [hcond] at hu
    have hwaiting := h.members u hu
    have hut : u ≠ t := by
      rintro rfl
      exact ht hwaiting
    rw [hworkers, Function.update_of_ne hut, hwaiting]
  covers := by
    rw [hcond]
    exact h.covers.mono hqueue
  running := by
    rw [hrunning, hstopping]
    exact h.running
  released := by
    rw [hcond, hstopping]
    exact h.released

/-- A turn in `take`, by a worker that is not at the condition variable; one task less needs to be spoken for. -/
theorem Waits.take (hmembers : ∀ u, s.cond.Mem u → u ≠ t ∧ s.workers u = .waiting)
    (hcovers : s.cond.Covers (s.queue.length - 1)) (hrunning : s.running = true ↔ s.stopping = .before)
    (hreleased : s.stopping = .released → s.cond.waiting = ∅) : (s.take t).Waits := by
  have hothers : ∀ (p : WorkerPoint α) u, s.cond.Mem u → Function.update s.workers t p u = .waiting := by
    intro p u hu
    rw [Function.update_of_ne (hmembers u hu).1, (hmembers u hu).2]
  obtain ⟨hqueue, hrun, htake⟩ | ⟨hqueue, -, htake⟩ | ⟨task, queue, hqueue, htake⟩ := take_cases s t
  · rw [htake]
    refine ⟨?_, ?_, hrunning, ?_⟩
    · intro u hu
      rcases Condition.mem_wait.mp hu with rfl | hu
      · exact Function.update_self _ _ _
      · exact hothers _ u hu
    · show (s.cond.wait t).Covers s.queue.length
      rw [hqueue]
      exact Condition.Covers.zero _
    -- a worker only waits while `running_` is true, so before `stop`
    · intro hstop
      have hbefore : s.stopping = .before := hrunning.mp hrun
      rw [hbefore] at hstop
      cases hstop
  · rw [htake]
    refine ⟨hothers _, ?_, hrunning, hreleased⟩
    show s.cond.Covers s.queue.length
    rw [hqueue]
    exact Condition.Covers.zero _
  · rw [htake]
    refine ⟨hothers _, ?_, hrunning, hreleased⟩
    rw [hqueue] at hcovers
    exact hcovers

theorem Waits.exec (h : s.Waits) (ha : s.enabled a) (hs' : s.exec a = .ok s') : s'.Waits := by
  cases a with
  | run task u =>
      obtain rfl := Except.ok.inj hs'
      obtain ⟨-, hpick⟩ := ha
      unfold run
      split
      · exact ⟨h.members, h.covers, h.running, h.released⟩
      · refine ⟨?_, ?_, h.running, ?_⟩
        · exact fun v hv => h.members v ((Condition.mem_notify hpick).mp hv)
        · show (s.cond.notify u).Covers (s.queue ++ [task]).length
          rw [List.length_append, List.length_singleton]
          exact h.covers.notify hpick
        · exact fun hstop => Condition.waiting_notify_eq_empty (h.released hstop) u
  | readRunning t =>
      -- without the mutex, but no worker at the condition variable is moved
      obtain rfl := Except.ok.inj hs'
      have ht : s.workers t = .loopHead := ha
      exact h.move (t := t) (by simp [ht]) rfl le_rfl rfl rfl rfl
  | take t =>
      obtain rfl := Except.ok.inj hs'
      refine Waits.take ?_ (h.covers.mono (Nat.sub_le _ _)) h.running h.released
      intro u hu
      refine ⟨?_, h.members u hu⟩
      rintro rfl
      have hlocking := ha.2.symm.trans (h.members u hu)
      cases hlocking
  | spurious t =>
      obtain rfl := Except.ok.inj hs'
      refine ⟨fun u hu => h.members u hu.of_spurious, h.covers.spurious t, h.running, ?_⟩
      intro hstop
      show s.cond.waiting.erase t = ∅
      rw [h.released hstop, Finset.erase_empty]
  | resume t =>
      obtain rfl := Except.ok.inj hs'
      refine Waits.take ?_ (h.covers.resume t) h.running h.released
      intro u hu
      obtain ⟨hut, hu⟩ := (Condition.mem_resume ha.2.2).mp hu
      exact ⟨hut, h.members u hu⟩
  | call t =>
      obtain ⟨task, ht⟩ := ha
      rw [exec_call ht] at hs'
      obtain rfl := Except.ok.inj hs'
      exact h.move (t := t) (by simp [ht]) rfl le_rfl rfl rfl rfl
  | taskReturns t =>
      obtain rfl := Except.ok.inj hs'
      have ht : s.workers t = .executing := ha
      exact h.move (t := t) (by simp [ht]) rfl le_rfl rfl rfl rfl
  | stop =>
      obtain rfl := Except.ok.inj hs'
      exact ⟨h.members, h.covers, by simp, by simp⟩
  | stopNotify =>
      obtain rfl := Except.ok.inj hs'
      have hstop : s.stopping = .cleared := ha
      refine ⟨fun u hu => h.members u (Condition.mem_notifyAll.mp hu), .of_waiting_eq_empty rfl _, ?_, fun _ => rfl⟩
      show s.running = true ↔ StopPoint.released = .before
      rw [h.running, hstop]
      simp

theorem poolSystem_inv (h : (poolSystem n α).Reachable s) : s.Tasks ∧ s.Waits := by
  refine System.keeps (S := poolSystem n α) (I := fun s => s.Tasks ∧ s.Waits) ?_ ?_ h
  · rintro s rfl
    refine ⟨⟨rfl, by simp, by simp, ?_, ?_⟩, ⟨?_, .of_waiting_eq_empty rfl _, by simp, by simp⟩⟩
    · exact fun t p hp => by simp [WorkerPoint.task] at hp
    · exact fun t t' p p' hp => by simp [WorkerPoint.task] at hp
    · exact fun t ht => absurd ht (Condition.not_mem_empty t)
  · exact fun s a s' hs ha hs' => ⟨hs.1.exec ha hs', hs.2.exec ha hs'⟩

/-! ## After `stop` has released the mutex -/

/-- A worker makes a step towards the end, and the others stay where they are. -/
theorem stepsLeft_update {p : WorkerPoint α} (hp : p.stepsLeft + 1 ≤ (s.workers t).stepsLeft) (u : Fin n) :
    (Function.update s.workers t p u).stepsLeft + (if some t = some u then 1 else 0) ≤ (s.workers u).stepsLeft := by
  by_cases hu : u = t
  · subst hu
    simpa using hp
  · have htu : some t ≠ some u := by simpa using Ne.symm hu
    rw [Function.update_of_ne hu, if_neg htu, Nat.add_zero]

/-- A worker that comes to the loop in `take` leaves it. -/
theorem take_stepsLeft (hrunning : s.running ≠ true) (hstop : s.stopping = .released)
    (ht : (s.workers t).stepsLeft = 4) : (s.take t).stopping = .released ∧
      ∀ u, ((s.take t).workers u).stepsLeft + (if some t = some u then 1 else 0) ≤ (s.workers u).stepsLeft := by
  obtain ⟨-, hrun, -⟩ | ⟨-, -, htake⟩ | ⟨task, queue, -, htake⟩ := take_cases s t
  · exact absurd hrun hrunning
  · rw [htake]
    exact ⟨hstop, stepsLeft_update (by rw [ht]; simp [WorkerPoint.stepsLeft])⟩
  · rw [htake]
    exact ⟨hstop, stepsLeft_update (by rw [ht]; simp [WorkerPoint.stepsLeft])⟩

/-- **Every step of a worker brings it nearer to the end of `runInThread`**, and no other step takes it away from
    there. -/
theorem Waits.exec_stepsLeft (h : s.Waits) (hstop : s.stopping = .released) (ha : s.enabled a)
    (hs' : s.exec a = .ok s') : s'.stopping = .released ∧
      ∀ u, (s'.workers u).stepsLeft + (if a.worker = some u then 1 else 0) ≤ (s.workers u).stepsLeft := by
  have hrunning : s.running ≠ true := by
    rw [Ne, h.running, hstop]
    simp
  cases a with
  | run task u =>
      obtain rfl := Except.ok.inj hs'
      unfold run
      split <;> exact ⟨hstop, fun _ => le_rfl⟩
  | readRunning t =>
      obtain rfl := Except.ok.inj hs'
      have ht : s.workers t = .loopHead := ha
      refine ⟨hstop, stepsLeft_update ?_⟩
      simp [ht, hrunning, WorkerPoint.stepsLeft]
  | take t =>
      obtain rfl := Except.ok.inj hs'
      exact take_stepsLeft hrunning hstop (by simp [ha.2, WorkerPoint.stepsLeft])
  | spurious t =>
      obtain rfl := Except.ok.inj hs'
      exact ⟨hstop, fun _ => le_rfl⟩
  | resume t =>
      obtain rfl := Except.ok.inj hs'
      exact take_stepsLeft (s := { s with cond := s.cond.resume t }) hrunning hstop
        (by simp [ha.2.1, WorkerPoint.stepsLeft])
  | call t =>
      obtain ⟨task, ht⟩ := ha
      rw [exec_call ht] at hs'
      obtain rfl := Except.ok.inj hs'
      refine ⟨hstop, stepsLeft_update ?_⟩
      cases task <;> simp [ht, WorkerPoint.stepsLeft]
  | taskReturns t =>
      obtain rfl := Except.ok.inj hs'
      have ht : s.workers t = .executing := ha
      refine ⟨hstop, stepsLeft_update ?_⟩
      simp [ht, WorkerPoint.stepsLeft]
  | stop =>
      have hbefore : s.stopping = .before := ha
      rw [hbefore] at hstop
      cases hstop
  | stopNotify =>
      have hcleared : s.stopping = .cleared := ha
      rw [hcleared] at hstop
      cases hstop

/-- A worker that did not leave `runInThread` yet can make a step. -/
theorem Waits.worker_enabled (h : s.Waits) (hstop : s.stopping = .released) (ht : s.workers t ≠ .exited) :
    ∃ a s', a.worker = some t ∧ s.enabled a ∧ s.exec a = .ok s' := by
  have hfree : s.stopping ≠ .cleared := by simp [hstop]
  cases hpoint : s.workers t with
  | loopHead => exact ⟨.readRunning t, _, rfl, hpoint, rfl⟩
  | locking => exact ⟨.take t, _, rfl, ⟨hfree, hpoint⟩, rfl⟩
  | waiting =>
      have hnotified : t ∉ s.cond.waiting := by simp [h.released hstop]
      exact ⟨.resume t, _, rfl, ⟨hfree, hpoint, hnotified⟩, rfl⟩
  | took task => exact ⟨.call t, _, rfl, ⟨task, hpoint⟩, exec_call hpoint⟩
  | executing => exact ⟨.taskReturns t, _, rfl, hpoint, rfl⟩
  | exited => exact absurd hpoint ht

/-- The steps that a worker makes in a run after `stop`. -/
theorem path_stepsLeft (h : (poolSystem n α).Reachable s) (hstop : s.stopping = .released)
    {actions : List (PoolAction n α)} (hpath : (poolSystem n α).Path s actions s') : s'.stopping = .released ∧
      ∀ u, (s'.workers u).stepsLeft + actions.countP (fun a => a.worker = some u) ≤ (s.workers u).stepsLeft := by
  induction hpath with
  | nil => exact ⟨hstop, fun u => by simp⟩
  | snoc hpath hs ih =>
      obtain ⟨hstop', hleft⟩ := ih
      obtain ⟨hstop'', hstep⟩ := (poolSystem_inv (h.path hpath)).2.exec_stepsLeft hstop' hs.1 hs.2
      refine ⟨hstop'', fun u => ?_⟩
      have hu := hleft u
      have hstep := hstep u
      rw [List.countP_append, List.countP_singleton]
      simp only [decide_eq_true_eq]
      omega

/-- **Every task at most once, and a clean stop.** For any number of workers and every interleaving: tasks are
    dequeued in the order of their submission, and no task is called twice; while a worker waits un-notified, there
    are no more tasks in the queue than workers that were notified and did not resume yet. Once `stop` has released
    the mutex, nobody waits un-notified any more, and each worker leaves `runInThread` after at most four steps of
    its own, each of which it can make as soon as its task has returned. -/
theorem pool_once_and_stops (h : (poolSystem n α).Reachable s) :
    s.submitted = s.dequeued ++ s.queue ∧
      (∀ p ∈ s.executed, s.dequeued[p.1]? = some (some p.2)) ∧ (s.executed.map Prod.fst).Nodup ∧
      (∀ t ∈ s.cond.waiting, s.workers t = .waiting ∧ s.queue.length ≤ s.cond.notified.card) ∧
      (∀ t ∈ s.cond.notified, s.workers t = .waiting) ∧
      (s.stopping = .released → ∀ actions s', (poolSystem n α).Path s actions s' →
        s'.cond.waiting = ∅ ∧
        (∀ t, (s'.workers t).stepsLeft + actions.countP (fun a => a.worker = some t) ≤ 4) ∧
        ∀ t, s'.workers t ≠ .exited → ∃ a s'', a.worker = some t ∧ s'.enabled a ∧ s'.exec a = .ok s'') := by
  obtain ⟨htasks, hwaits⟩ := poolSystem_inv h
  refine ⟨htasks.fifo, htasks.executed, htasks.once, ?_, fun t ht => hwaits.members t (Or.inr ht), ?_⟩
  · exact fun t ht => ⟨hwaits.members t (Or.inl ht), hwaits.covers ⟨t, ht⟩⟩
  · intro hstop actions s' hpath
    obtain ⟨hstop', hleft⟩ := path_stepsLeft h hstop hpath
    have hwaits' := (poolSystem_inv (h.path hpath)).2
    refine ⟨hwaits'.released hstop', fun t => (hleft t).trans ?_, fun t ht => hwaits'.worker_enabled hstop' ht⟩
    cases s.workers t <;> simp [WorkerPoint.stepsLeft]

/-- A pool with two workers that is given a task, and stopped while one of them waits. -/
theorem pool_once_and_stops_two : ∃ s : ThreadPool 2 Nat, s.executed = [(0, 7)] ∧ s.stopping = .released ∧
    ∀ actions s', (poolSystem 2 Nat).Path s actions s' → s'.cond.waiting = ∅ := by
  have h := (System.Reachable.init (S := poolSystem 2 Nat) rfl)
    |>.next (.readRunning 0) rfl rfl
    |>.next (.take 0) ⟨by decide, rfl⟩ rfl
    |>.next (.run (some 7) (some 0)) ⟨by decide, Finset.mem_insert_self _ _⟩ rfl
    |>.next (.resume 0) ⟨by decide, rfl, by decide⟩ rfl
    |>.next (.call 0) ⟨_, rfl⟩ rfl
    |>.next (.readRunning 1) rfl rfl
    |>.next (.take 1) ⟨by decide, rfl⟩ rfl
    |>.next .stop rfl rfl
    |>.next .stopNotify rfl rfl
  exact ⟨_, rfl, rfl, fun actions s' hpath =>
    ((pool_once_and_stops h).2.2.2.2.2 rfl actions s' hpath).1⟩

end ThreadPool

end Muduo
