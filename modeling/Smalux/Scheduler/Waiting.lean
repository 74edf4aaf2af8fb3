/-
  Subject:   Where executions wait, and how the actor moves them.

  An execution that is due waits in the queue, or its Job holds it back. Admission brings executions
  of one Job in, the restore pass moves held-back ones to the queue, dispatch takes them out. None
  of this touches a timer, a retry timer or another Job, and only executions that keep-latest and
  replace-oldest may drop are dropped.
-/
import Smalux.Scheduler.Machine

namespace Smalux.Scheduler

open Lib SchedulerActor Table List PendingKind

variable {blocked' : List PendingExecution} {a'' : SchedulerActor} {admission : Admission}

variable {blocked new : List PendingExecution} {a' : SchedulerActor} {jobId : JobId}
  {job : JobEntry}

variable {a : SchedulerActor} {p q : PendingExecution}

/-! ## 1. The queue -/

/-- The execution waits in the queue. -/
def SchedulerActor.Queued (a : SchedulerActor) (p : PendingExecution) : Prop :=
  a.ready.pending.get p.runId = some p

theorem queued_of_get {r : RunId} (h : a.ready.pending.get r = some p) : a.Queued p := by
  unfold Queued
  rw [a.ready.keyed r p h]
  exact h

theorem queued_insert : ({ a with ready := a.ready.insert p } : SchedulerActor).Queued q ↔
      q = p ∨ (q.runId ≠ p.runId ∧ a.Queued q) := by
  unfold Queued
  rw [ReadyQueue.pending_insert, get_insert]
  split
  · rename_i hid
    constructor
    · intro h
      exact .inl (Option.some.inj h).symm
    · rintro (rfl | ⟨hne, -⟩)
      · rfl
      · exact absurd hid hne
  · rename_i hid
    constructor
    · exact fun h => .inr ⟨hid, h⟩
    · rintro (rfl | ⟨-, h⟩)
      · exact absurd rfl hid
      · exact h

theorem queued_retain {f : PendingExecution → Bool} :
    ({ a with ready := a.ready.retain f } : SchedulerActor).Queued p ↔
      a.Queued p ∧ f p = true := by
  unfold Queued
  rw [show (a.ready.retain f).pending = a.ready.pending.retain fun _ e => f e from rfl,
    get_retain, Option.filter_eq_some_iff]

theorem queued_take {r : RunId} :
    ({ a with ready := (a.ready.take r).2 } : SchedulerActor).Queued p ↔
      a.Queued p ∧ p.runId ≠ r := by
  unfold Queued
  rw [show (a.ready.take r).2.pending = a.ready.pending.remove r from rfl, get_remove]
  by_cases hid : p.runId = r <;> simp [hid]

theorem queued_migrateJob {version : Nat} {priority : JobPriority} :
    ({ a with ready := a.ready.migrateJob jobId version priority } : SchedulerActor).Queued p ↔
      ∃ q, a.Queued q ∧ p = ReadyQueue.restamp jobId version priority q := by
  unfold Queued ReadyQueue.migrateJob
  rw [ReadyQueue.pending_compactIfNeeded, get_mapVals, Option.map_eq_some_iff]
  constructor
  · rintro ⟨q, hq, hp⟩
    exact ⟨q, queued_of_get hq, hp.symm⟩
  · rintro ⟨q, hq, rfl⟩
    rw [ReadyQueue.restamp_runId]
    exact ⟨q, hq, rfl⟩

/-! ## 2. Admission -/

/-- Since `a`, only what the Job holds back has changed: it is `blocked` now. -/
structure Holding (a : SchedulerActor) (jobId : JobId) (job : JobEntry)
    (blocked : List PendingExecution) (a' : SchedulerActor) : Prop where
  config : a'.config = a.config
  self : a'.jobs.get jobId = some { job with blocked := blocked }
  other : ∀ id, id ≠ jobId → a'.jobs.get id = a.jobs.get id

/-- The executions of one Job after keep-latest made room for `p`. -/
def keptBlocked (job : JobEntry) (p : PendingExecution) (blocked : List PendingExecution) :
    List PendingExecution :=
  if job.coalescing = .keepLatest ∧ p.kind.isReplaceableTrigger then
    blocked.filter fun item => !item.kind.isReplaceableTrigger
  else blocked

/-- `p` is held back too if it was not admitted. -/
def holdIf (admission : Admission) (p : PendingExecution) (blocked : List PendingExecution) :
    List PendingExecution :=
  if admission = .blocked then blocked ++ [p] else blocked

namespace Holding

variable {env : Env} {a : SchedulerActor}

section

variable (h : Holding a jobId job blocked a')
include h

theorem trans (h' : Holding a' jobId job blocked' a'') : Holding a jobId job blocked' a'' :=
  ⟨h'.config.trans h.config, h'.self, fun id hid => (h'.other id hid).trans (h.other id hid)⟩

/-- Other fields of the actor may change. -/
theorem frame (hc : a''.config = a'.config) (hj : a''.jobs = a'.jobs) :
    Holding a jobId job blocked a'' where
  config := hc.trans h.config
  self := by rw [hj]; exact h.self
  other := by rw [hj]; exact h.other

theorem modify {f : JobEntry → JobEntry}
    (hf : f { job with blocked := blocked } = { job with blocked := blocked' }) :
    Holding a jobId job blocked' (a'.modifyJob jobId f) where
  config := h.config
  self := by
    refine (get_modify a'.jobs jobId jobId f).trans ?_
    rw [if_pos rfl, h.self, Option.map_some, hf]
  other := fun id hid => by
    refine (get_modify a'.jobs jobId id f).trans ?_
    rw [if_neg hid, h.other id hid]

theorem block (hp : p.jobId = jobId) : Holding a jobId job (blocked ++ [p]) (a'.block env p) := by
  unfold SchedulerActor.block
  rw [hp]
  exact (h.modify rfl).frame rfl rfl

end

end Holding

theorem subset_holdIf : blocked ⊆ holdIf admission p blocked := by
  unfold holdIf
  split
  · exact subset_append_left _ _
  · exact Subset.refl _

/-- Executions of one Job have been admitted since `a`: `new`, in order. What the Job held back then
    and holds back now, and what waits in the queue, is what waited before or is new; an execution
    that may not be dropped still waits, unless a new one took its run id. -/
structure Admitted (a : SchedulerActor) (jobId : JobId) (job : JobEntry)
    (blocked new : List PendingExecution) (a' : SchedulerActor) : Prop
    extends Holding a jobId job blocked a' where
  timers : a'.timers = a.timers
  retryTimers : a'.retryTimers = a.retryTimers
  queued : ∀ p, a'.Queued p → a.Queued p ∨ p ∈ new
  held : ∀ p ∈ blocked, p ∈ job.blocked ∨ p ∈ new
  kept : ∀ p, p.kind ≠ .normal → (∀ q ∈ new, q.runId = p.runId → q = p) →
    a.Queued p ∨ p ∈ job.blocked ∨ p ∈ new → a'.Queued p ∨ p ∈ blocked

namespace Admitted

variable {env : Env} {a : SchedulerActor} {p : PendingExecution}

theorem start (h : Holding a jobId job job.blocked a') (ht : a'.timers = a.timers)
    (hr : a'.retryTimers = a.retryTimers) (hq : a'.ready = a.ready) :
    Admitted a jobId job job.blocked [] a' where
  toHolding := h
  timers := ht
  retryTimers := hr
  queued := fun p hp => .inl (by unfold Queued at hp ⊢; rwa [hq] at hp)
  held := fun p hp => .inl hp
  kept := fun p _ _ hp => by
    rcases hp with hp | hp | hp
    · exact .inl (by unfold Queued at hp ⊢; rwa [hq])
    · exact .inr hp
    · cases hp

/-- Other fields of the actor may change. -/
theorem frame (h : Admitted a jobId job blocked new a') (hc : a''.config = a'.config)
    (hj : a''.jobs = a'.jobs) (ht : a''.timers = a'.timers) (hr : a''.retryTimers = a'.retryTimers)
    (hq : a''.ready = a'.ready) : Admitted a jobId job blocked new a'' where
  toHolding := h.toHolding.frame hc hj
  timers := ht.trans h.timers
  retryTimers := hr.trans h.retryTimers
  queued := fun p hp => h.queued p (by unfold Queued at hp ⊢; rwa [hq] at hp)
  held := h.held
  kept := fun p hk hid hp => (h.kept p hk hid hp).imp_left fun hp => by
    unfold Queued at hp ⊢
    rwa [hq]

theorem emitReplaced (replacement : RunId) : ∀ (removed : List RunId) {a' : SchedulerActor},
    Admitted a jobId job blocked new a' →
    Admitted a jobId job blocked new (a'.emitReplaced env jobId replacement removed)
  | [], _, h => h
  | _ :: rest, _, h => emitReplaced replacement rest (h.frame rfl rfl rfl rfl rfl)

section

variable (h : Admitted a jobId job blocked new a')
include h

/-- Executions that may be dropped leave the queue. -/
theorem shrink {ready : ReadyQueue}
    (hback : ∀ q, ({ a' with ready := ready } : SchedulerActor).Queued q → a'.Queued q)
    (hkeep : ∀ q, q.kind ≠ .normal → a'.Queued q →
      ({ a' with ready := ready } : SchedulerActor).Queued q) :
    Admitted a jobId job blocked new { a' with ready := ready } where
  toHolding := h.toHolding.frame rfl rfl
  __ := h
  queued := fun q hq => h.queued q (hback q hq)
  kept := fun q hk hid hq => (h.kept q hk hid hq).imp_left (hkeep q hk)

theorem coalesce (hp : p.jobId = jobId) :
    Admitted a jobId job (blocked.filter fun item => !item.kind.isReplaceableTrigger) new
      (a'.coalesce env p { job with blocked := blocked }) := by
  have hshrunk : Admitted a jobId job blocked new
      { a' with ready := (a'.ready.removeNormalTriggers jobId).2 } := by
    refine h.shrink (fun q hq => (queued_retain.mp hq).1) fun q hk hq => ?_
    refine queued_retain.mpr ⟨hq, ?_⟩
    simp [ReadyQueue.replaceableOf, isReplaceableTrigger, hk]
  unfold SchedulerActor.coalesce
  rw [hp]
  refine emitReplaced p.runId _ ⟨hshrunk.toHolding.modify rfl, h.timers, h.retryTimers,
    hshrunk.queued, fun q hq => h.held q (mem_filter.mp hq).1, fun q hk hid hq => ?_⟩
  refine (hshrunk.kept q hk hid hq).imp id fun hq => ?_
  exact mem_filter.mpr ⟨hq, by simp [isReplaceableTrigger, hk]⟩

/-- One more execution is held back. -/
theorem block (hp : p.jobId = jobId) :
    Admitted a jobId job (blocked ++ [p]) (new ++ [p]) (a'.block env p) where
  toHolding := h.toHolding.block hp
  __ := h
  queued := fun q hq => (h.queued q hq).imp_right (mem_append_left _)
  held := fun q hq => by
    rcases mem_append.mp hq with hq | hq
    · exact (h.held q hq).imp_right (mem_append_left _)
    · exact .inr (mem_append_right _ hq)
  kept := fun q hk hid hq => by
    have hrest := h.kept q hk fun q' hq' => hid q' (mem_append_left _ hq')
    rcases hq with hq | hq | hq
    · exact (hrest (.inl hq)).imp_right (mem_append_left _)
    · exact (hrest (.inr (.inl hq))).imp_right (mem_append_left _)
    · rcases mem_append.mp hq with hq | hq
      · exact (hrest (.inr (.inr hq))).imp_right (mem_append_left _)
      · exact .inr (mem_append_right _ hq)

/-- One more execution is queued. -/
theorem enqueue : Admitted a jobId job blocked (new ++ [p]) (a'.enqueue env p) where
  toHolding := h.toHolding.frame rfl rfl
  __ := h
  queued := fun q hq => by
    rcases queued_insert.mp hq with rfl | ⟨-, hq⟩
    · exact .inr (mem_append_right _ (mem_singleton_self _))
    · exact (h.queued q hq).imp_right (mem_append_left _)
  held := fun q hq => (h.held q hq).imp_right (mem_append_left _)
  kept := fun q hk hid hq => by
    have hlast : q.runId = p.runId → q = p := fun he =>
      (hid p (mem_append_right _ (mem_singleton_self _)) he.symm).symm
    by_cases hqp : q = p
    · exact .inl (queued_insert.mpr (.inl hqp))
    · have hbefore : a.Queued q ∨ q ∈ job.blocked ∨ q ∈ new := by
        refine hq.imp_right (Or.imp_right fun hq => ?_)
        rcases mem_append.mp hq with hq | hq
        · exact hq
        · exact absurd (mem_singleton.mp hq) hqp
      refine (h.kept q hk (fun q' hq' => hid q' (mem_append_left _ hq')) hbefore).imp_left
        fun hq => ?_
      exact queued_insert.mpr (.inr ⟨fun he => hqp (hlast he), hq⟩)

/-- One execution is dropped at the door. -/
theorem skip (hk : p.kind = .normal) : Admitted a jobId job blocked (new ++ [p]) a' where
  __ := h
  queued := fun q hq => (h.queued q hq).imp_right (mem_append_left _)
  held := fun q hq => (h.held q hq).imp_right (mem_append_left _)
  kept := fun q hq hid hw => by
    refine h.kept q hq (fun q' hq' => hid q' (mem_append_left _ hq')) ?_
    refine hw.imp_right (Or.imp_right fun hnew => ?_)
    rcases mem_append.mp hnew with hnew | hnew
    · exact hnew
    · rw [mem_singleton.mp hnew] at hq
      exact absurd hk hq

/-- The oldest waiting trigger makes room. -/
theorem removeOldest (id : JobId) :
    Admitted a jobId job blocked new { a' with ready := (a'.ready.removeOldestTrigger id).2 } := by
  unfold ReadyQueue.removeOldestTrigger
  split
  · exact h
  · rename_i old hold
    refine h.shrink (fun q hq => (queued_take.mp hq).1) fun q hk hq => ?_
    refine queued_take.mpr ⟨hq, fun hid => ?_⟩
    obtain ⟨hmem, hrep⟩ := mem_filter.mp (ReadyQueue.earliest_mem hold)
    obtain ⟨r, hr⟩ := mem_values_iff.mp hmem
    have hsame : q = old := Option.some.inj
      (hq.symm.trans (by rw [hid]; exact queued_of_get hr))
    rw [← hsame] at hrep
    simp [ReadyQueue.replaceableOf, isReplaceableTrigger, hk] at hrep

/-- The capacity policy meets an execution; one that may not be dropped meets backpressure. -/
theorem admitWithin (hp : p.jobId = jobId) (entry : JobEntry) (capacity : CapacityPolicy)
    (hc : p.kind ≠ .normal → capacity = .backpressure) :
    Admitted a jobId job (holdIf (a'.admitWithin env p entry capacity).1 p blocked) (new ++ [p])
      (a'.admitWithin env p entry capacity).2 := by
  unfold SchedulerActor.admitWithin
  split
  · cases capacity with
    | skipNewest =>
      have hk : p.kind = .normal := by
        by_contra hk
        cases hc hk
      exact skip (h.frame rfl rfl rfl rfl rfl) hk
    | replaceOldestTrigger =>
      have hold := h.removeOldest p.jobId
      dsimp only
      split
      · rename_i old ready heq
        rw [heq] at hold
        exact enqueue (hold.frame rfl rfl rfl rfl rfl)
      · exact h.block hp
    | backpressure => exact h.block hp
  · exact h.enqueue

end

theorem admitPending (env : Env) (h : Admitted a jobId job blocked new a') (hp : p.jobId = jobId)
    (force : Bool) : Admitted a jobId job
      (holdIf (a'.admitPending env p force).1 p (keptBlocked job p blocked)) (new ++ [p])
      (a'.admitPending env p force).2 := by
  have hj : a'.jobs.get p.jobId = some { job with blocked := blocked } := by rw [hp]; exact h.self
  have hc : p.kind ≠ .normal →
      (if force || !p.kind.isReplaceableTrigger then CapacityPolicy.backpressure else job.capacity) =
        .backpressure := by
    intro hk
    simp [isReplaceableTrigger, hk]
  unfold SchedulerActor.admitPending
  rw [hj]
  refine admitWithin ?_ hp _ _ hc
  unfold keptBlocked
  split
  · exact h.coalesce hp
  · exact h

end Admitted

section Issued

variable (env : Env) (a : SchedulerActor) (p : PendingExecution)

theorem issued_emitReplaced (jobId : JobId) (replacement : RunId) : ∀ (removed : List RunId)
    (a : SchedulerActor), (a.emitReplaced env jobId replacement removed).issued = a.issued
  | [], _ => rfl
  | _ :: rest, _ => issued_emitReplaced jobId replacement rest _

/-- Admission draws no run id. -/
theorem issued_admitPending (force : Bool) : (a.admitPending env p force).2.issued = a.issued := by
  have hwithin : ∀ (b : SchedulerActor) (job : JobEntry) (capacity : CapacityPolicy),
      (b.admitWithin env p job capacity).2.issued = b.issued := by
    intro b job capacity
    unfold admitWithin
    split
    · cases capacity with
      | skipNewest | backpressure => rfl
      | replaceOldestTrigger =>
        dsimp only
        split <;> rfl
    · rfl
  unfold admitPending
  split
  · rfl
  · refine (hwithin _ _ _).trans ?_
    split
    · exact issued_emitReplaced env _ _ _ _
    · rfl

end Issued

/-- An execution drawn for an occurrence of the Job, with a run id that is new since `a`. -/
structure Drawn (env : Env) (a : SchedulerActor) (jobId : JobId) (version : Nat) (kind : PendingKind)
    (p : PendingExecution) : Prop where
  jobId : p.jobId = jobId
  version : p.version = version
  kind : p.kind = kind
  fresh : ∃ i, a.issued ≤ i ∧ p.runId = env.runIds i

/-- **The executions of one expiry** are admitted, one for each occurrence. If one of them is held
    back, something still is in the end -- with keep-latest only because there was just one. -/
theorem Admitted.admitOccurrences (env : Env) (entry : JobEntry) (batchId : Nat)
    (kind : PendingKind) :
    ∀ (occurrences : List DateTime) (flag : Bool) {blocked new : List PendingExecution}
      {a' : SchedulerActor}, Admitted a jobId job blocked new a' →
      ∃ blocked' drawn, Admitted a jobId job blocked' (new ++ drawn)
          (a'.admitOccurrences env jobId entry batchId kind flag occurrences).2 ∧
        drawn.length = occurrences.length ∧
        (∀ p ∈ drawn, Drawn env a' jobId entry.version kind p ∧ p.scheduledAt ∈ occurrences) ∧
        ((flag = true → blocked ≠ []) →
          job.coalescing = .keepAll ∨ occurrences = [] ∨ (flag = false ∧ occurrences.length ≤ 1) →
          (a'.admitOccurrences env jobId entry batchId kind flag occurrences).1 = true →
          blocked' ≠ [])
  | [], _, blocked, new, a', h =>
    ⟨blocked, [], by rw [append_nil]; exact h, rfl, nofun,
      fun hflag _ hr => hflag hr⟩
  | occurrence :: rest, flag, blocked, new, a', h => by
    simp only [SchedulerActor.admitOccurrences]
    generalize hp : (PendingExecution.mk jobId entry.version (env.runIds a'.issued) 1 occurrence kind
      entry.priority batchId) = p
    have hdrawn : Drawn env a' jobId entry.version kind p ∧ p.scheduledAt = occurrence := by
      rw [← hp]
      exact ⟨⟨rfl, rfl, rfl, a'.issued, Nat.le_refl _, rfl⟩, rfl⟩
    have hstart : Admitted a jobId job blocked new { a' with issued := a'.issued + 1 } :=
      h.frame rfl rfl rfl rfl rfl
    have hadm := hstart.admitPending env hdrawn.1.jobId (kind == once)
    have hissued := issued_admitPending env { a' with issued := a'.issued + 1 } p
      (kind == once)
    generalize ({ a' with issued := a'.issued + 1 } : SchedulerActor).admitPending env p
      (kind == once) = admitted at hadm hissued ⊢
    obtain ⟨blocked', drawn, hrest, hlen, hnew, hne⟩ := Admitted.admitOccurrences env entry batchId
      kind rest (flag || admitted.1 == Admission.blocked) hadm
    rw [append_assoc] at hrest
    refine ⟨blocked', p :: drawn, hrest, by rw [length_cons, hlen, length_cons],
      fun q hq => ?_, fun hflag hcond hr => hne ?_ ?_ hr⟩
    · rcases mem_cons.mp hq with rfl | hq
      · exact ⟨hdrawn.1, hdrawn.2 ▸ mem_cons_self⟩
      · obtain ⟨⟨hj, hv, hk, i, hi, hr⟩, ht⟩ := hnew q hq
        rw [hissued] at hi
        exact ⟨⟨hj, hv, hk, i, Nat.le_of_succ_le hi, hr⟩, mem_cons_of_mem _ ht⟩
    · intro hor
      by_cases hb : admitted.1 = .blocked
      · rw [holdIf, if_pos hb]
        exact append_ne_nil_of_right_ne_nil _ (cons_ne_nil _ _)
      · -- it was an earlier one, and nothing has made room since
        have hf : flag = true := by simpa [hb] using hor
        have hall : job.coalescing = .keepAll := by
          rcases hcond with hall | hnil | ⟨hfalse, -⟩
          · exact hall
          · cases hnil
          · rw [hf] at hfalse
            cases hfalse
        rw [holdIf, if_neg hb, keptBlocked, if_neg (by rw [hall]; simp)]
        exact hflag hf
    · rcases hcond with hall | hnil | ⟨-, hlen⟩
      · exact .inl hall
      · cases hnil
      · refine .inr (.inl (eq_nil_of_length_eq_zero ?_))
        rw [length_cons] at hlen
        omega

/-! ## 3. The restore pass -/

/-- Some of the executions a Job held back in `a` have returned to the queue, in order; those of an
    old version are dropped on the way. -/
structure Requeued (a : SchedulerActor) (jobId : JobId) (job : JobEntry)
    (blocked : List PendingExecution) (a' : SchedulerActor) : Prop
    extends Holding a jobId job blocked a' where
  timers : a'.timers = a.timers
  retryTimers : a'.retryTimers = a.retryTimers
  rest : blocked <:+ job.blocked
  queued : ∀ p, a'.Queued p → a.Queued p ∨ p ∈ job.blocked
  keptQueued : ∀ p, (∀ q ∈ job.blocked, q.runId = p.runId → q = p) → a.Queued p → a'.Queued p
  kept : ∀ p, (∀ q ∈ job.blocked, q.runId = p.runId → q = p) → p ∈ job.blocked →
    p.version = job.version → a'.Queued p ∨ p ∈ blocked

namespace Requeued

variable {env : Env} {a : SchedulerActor} {p : PendingExecution}

theorem start (hj : a.jobs.get jobId = some job) : Requeued a jobId job job.blocked a where
  toHolding := ⟨rfl, hj, fun _ _ => rfl⟩
  timers := rfl
  retryTimers := rfl
  rest := suffix_refl _
  queued := fun _ hp => .inl hp
  keptQueued := fun _ _ hp => hp
  kept := fun _ _ hp _ => .inr hp

/-- Other fields of the actor may change. -/
theorem frame (h : Requeued a jobId job blocked a') (hc : a''.config = a'.config)
    (hj : a''.jobs = a'.jobs) (ht : a''.timers = a'.timers) (hr : a''.retryTimers = a'.retryTimers)
    (hq : a''.ready = a'.ready) : Requeued a jobId job blocked a'' := by
  have hsame : ∀ q, a''.Queued q ↔ a'.Queued q := fun q => by unfold Queued; rw [hq]
  exact
    { toHolding := h.toHolding.frame hc hj
      timers := ht.trans h.timers
      retryTimers := hr.trans h.retryTimers
      rest := h.rest
      queued := fun q hq => h.queued q ((hsame q).mp hq)
      keptQueued := fun q hid hq => (hsame q).mpr (h.keptQueued q hid hq)
      kept := fun q hid hm hv => (h.kept q hid hm hv).imp_left (hsame q).mpr }

/-- The first held-back execution returns. -/
theorem requeue (h : Requeued a jobId job (p :: blocked) a') : Requeued a jobId job blocked
      { a'.modifyJob jobId popBlocked with ready := a'.ready.insert p } := by
  have hmem : p ∈ job.blocked := h.rest.subset mem_cons_self
  have hstays : ∀ q, (∀ q' ∈ job.blocked, q'.runId = q.runId → q' = q) → a'.Queued q →
      ({ a' with ready := a'.ready.insert p } : SchedulerActor).Queued q := by
    intro q hid hq
    by_cases hqp : q = p
    · exact queued_insert.mpr (.inl hqp)
    · exact queued_insert.mpr (.inr ⟨fun he => hqp (hid p hmem he.symm).symm, hq⟩)
  exact
    { toHolding := (h.toHolding.modify rfl).frame rfl rfl
      __ := h
      rest := (suffix_cons p blocked).trans h.rest
      queued := fun q hq => by
        rcases queued_insert.mp hq with rfl | ⟨-, hq⟩
        · exact .inr hmem
        · exact h.queued q hq
      keptQueued := fun q hid hq => hstays q hid (h.keptQueued q hid hq)
      kept := fun q hid hm hv => by
        rcases h.kept q hid hm hv with hq | hq
        · exact .inl (hstays q hid hq)
        · rcases mem_cons.mp hq with rfl | hq
          · exact .inl (queued_insert.mpr (.inl rfl))
          · exact .inr hq }

/-- The first held-back execution is of an old version. -/
theorem discard (h : Requeued a jobId job (p :: blocked) a') (hv : job.version ≠ p.version) :
    Requeued a jobId job blocked (a'.modifyJob jobId popBlocked) where
  toHolding := h.toHolding.modify rfl
  __ := h
  rest := (suffix_cons p blocked).trans h.rest
  kept := fun q hid hm hq => by
    refine (h.kept q hid hm hq).imp_right fun hin => ?_
    rcases mem_cons.mp hin with rfl | hin
    · exact absurd hq.symm hv
    · exact hin

/-- **The restore loop** moves held-back executions of the Job to the queue. -/
theorem restoreLoop (limit : Nat) : ∀ (fuel : Nat) (resumeFrom : Option DateTime)
    {blocked : List PendingExecution} {a' : SchedulerActor}, Requeued a jobId job blocked a' →
    ∃ blocked', Requeued a jobId job blocked'
      (SchedulerActor.restoreLoop env jobId limit fuel resumeFrom a').2
  | 0, _, blocked, _, h => ⟨blocked, h⟩
  | fuel + 1, resumeFrom, blocked, a', h => by
    simp only [SchedulerActor.restoreLoop]
    split
    · rw [h.self]
      cases blocked with
      | nil => exact ⟨[], h⟩
      | cons =>
        dsimp only
        split
        · exact restoreLoop limit fuel _ (h.requeue.frame rfl rfl rfl rfl rfl)
        · rename_i hv
          exact restoreLoop limit fuel _ (h.discard hv)
    · exact ⟨blocked, h⟩

/-- What was held back, up to the limit of the Job. -/
theorem restored (env : Env) (hj : a.jobs.get jobId = some job) : ∃ blocked, Requeued a jobId job
    blocked (SchedulerActor.restoreLoop env jobId (a.jobLimit job) job.blocked.length none a).2 :=
  (start hj).restoreLoop (a.jobLimit job) job.blocked.length none

end Requeued

/-! ## 4. What both have in common -/

/-- Executions of a Job have moved between the queue and the Job; no timer has. -/
structure Shifted (a : SchedulerActor) (jobId : JobId) (job : JobEntry)
    (blocked new : List PendingExecution) (a' : SchedulerActor) : Prop
    extends Holding a jobId job blocked a' where
  timers : a'.timers = a.timers
  retryTimers : a'.retryTimers = a.retryTimers
  queued : ∀ p, a'.Queued p → a.Queued p ∨ p ∈ new
  held : ∀ p ∈ blocked, p ∈ job.blocked ∨ p ∈ new

section Shifted

variable {a : SchedulerActor}

theorem Admitted.shifted (h : Admitted a jobId job blocked new a') :
    Shifted a jobId job blocked new a' := { h with }

theorem Requeued.shifted (h : Requeued a jobId job blocked a') :
    Shifted a jobId job blocked job.blocked a' :=
  { h with held := fun _ hp => .inl (h.rest.subset hp) }

end Shifted

end Smalux.Scheduler
