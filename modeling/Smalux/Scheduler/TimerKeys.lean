/-
  Subject:   Which timer keys the actor stores, and whether they are alive.

  A Job stores the key of its normal timer, the retry index the key of each retry timer, and the
  maintenance tick resets the deadline behind every stored key; on a dead key that panics.

  * `KeysOwned` -- the invariant, also between the steps of a handler: behind every stored key is a
    timer of its owner, at the owner's current version, in the queue or in the batch being handled;
  * `TimerGuard` -- no timer expires while its Job, still at the timer's version, is not enabled;
  * **`keys_live_while_guarded`** -- in every run whose expiries meet it, every stored key is alive
    in every state, and `reanchor_timers` does not panic.
-/
import Smalux.Scheduler.Separation
import Smalux.Scheduler.Simulation

namespace Smalux.Scheduler

open Lib SchedulerActor Table Option DelayQueue

variable {a a' : SchedulerActor} {entry : TimerEntry} {id : JobId} {key : Nat}
  {owner owner' : Option RunId} {jobId : JobId}

/-! ## 1. The invariant -/

/-- The timer behind a key, in the queue or taken out with the batch being handled. -/
def Machine.Finds (m : Machine) (key : Nat) (entry : TimerEntry) : Prop :=
  m.actor.timers.get key = some entry ∨ (key, entry) ∈ m.popped

/-- The key is stored for a timer of the Job: by the Job itself (`none`), or in the retry index
    under one of its runs. -/
def SchedulerActor.Keeps (a : SchedulerActor) (id : JobId) (key : Nat) : Option RunId → Prop
  | none => ∃ job, a.jobs.get id = some job ∧ job.normalTimerKey = some key
  | some r => ∃ t, a.retryTimers.get r = some t ∧ t.jobId = id ∧ t.key = key

/-- The timer is one that is stored there. -/
def TimerEntry.IsOf (entry : TimerEntry) (id : JobId) : Option RunId → Prop
  | none => entry.IsNormalOf id
  | some r => entry.IsRetryOf id r

/-- The Job is at the timer's version, and enabled if the timer has left the queue. -/
def Machine.Current (m : Machine) (key : Nat) (entry : TimerEntry) : Prop :=
  ∃ job, m.actor.jobs.get entry.jobId = some job ∧ job.version = entry.version ∧
    (m.actor.timers.get key = none → job.state = .enabled)

/-- Every stored key stands for a current timer of its owner. -/
structure KeysOwned (m : Machine) : Prop where
  owned : ∀ id key owner, m.actor.Keeps id key owner →
    ∃ entry, m.Finds key entry ∧ entry.IsOf id owner ∧ m.Current key entry
  dead : ∀ key entry, (key, entry) ∈ m.popped →
    key < m.actor.timers.nextKey ∧ m.actor.timers.get key = none
  once : (m.popped.map Prod.fst).Nodup

section Keeps

variable {id' : JobId}

theorem TimerEntry.IsOf.jobId_eq (h : entry.IsOf id owner) : entry.jobId = id := by
  cases owner with
  | none | some => exact h.1

/-- A timer is stored in one place. -/
theorem TimerEntry.IsOf.unique (h : entry.IsOf id owner) (h' : entry.IsOf id' owner') :
    id = id' ∧ owner = owner' := by
  refine ⟨h.jobId_eq.symm.trans h'.jobId_eq, ?_⟩
  cases owner with
  | none =>
    cases owner' with
    | none => rfl
    | some =>
      obtain ⟨-, s, n, hk⟩ := h'
      rcases h.2 with hn | hn <;> rw [hk] at hn <;> cases hn
  | some =>
    obtain ⟨-, s, n, hk⟩ := h
    cases owner' with
    | none => rcases h'.2 with hn | hn <;> rw [hk] at hn <;> cases hn
    | some =>
      obtain ⟨-, s', n', hk'⟩ := h'
      cases hk.symm.trans hk'
      rfl

/-- Job and retry index have forgotten keys, or nothing. -/
theorem SchedulerActor.Keeps.mono (h : a'.Keeps id key owner)
    (hjob : ∀ job', a'.jobs.get id = some job' → job'.normalTimerKey = some key →
      ∃ job, a.jobs.get id = some job ∧ job.normalTimerKey = some key)
    (hr : ∀ r t, a'.retryTimers.get r = some t → t.jobId = id → a.retryTimers.get r = some t) :
    a.Keeps id key owner := by
  cases owner with
  | none =>
    obtain ⟨job', hj, hk⟩ := h
    exact hjob job' hj hk
  | some r =>
    obtain ⟨t, ht, hid, hk⟩ := h
    exact ⟨t, hr r t ht hid, hid, hk⟩

/-- The Job has just set what it stores. -/
def Renewed (a : SchedulerActor) (id : JobId) : Prop :=
  ∀ key owner, a.Keeps id key owner →
    ∃ entry, a.timers.get key = some entry ∧ entry.IsOf id owner ∧
      a.atVersion id entry.version = true

theorem Renewed.of_none (hn : ∀ job, a.jobs.get id = some job → job.normalTimerKey = none)
    (hr : ∀ r t, a.retryTimers.get r = some t → t.jobId ≠ id) : Renewed a id := by
  intro key owner hkeeps
  cases owner with
  | none =>
    obtain ⟨job, hj, hk⟩ := hkeeps
    rw [hn job hj] at hk
    cases hk
  | some r =>
    obtain ⟨t, ht, hid, -⟩ := hkeeps
    exact absurd hid (hr r t ht)

theorem Renewed.scheduleNormal (env : Env) (hr : ∀ r t, a.retryTimers.get r = some t → t.jobId ≠ id)
    (runAt : DateTime) {kind : TimerKind} (hk : kind = .normal ∨ kind = .runNow) :
    Renewed (a.scheduleNormal env id runAt kind) id := by
  intro key owner hkeeps
  cases owner with
  | none =>
    obtain ⟨job, hj, hkey⟩ := hkeeps
    exact ⟨_, scheduleNormal_stored env a id runAt kind hj hkey, ⟨rfl, hk⟩,
      atVersion_iff.mpr ⟨job, hj, rfl⟩⟩
  | some r =>
    obtain ⟨t, ht, hid, -⟩ := hkeeps
    rw [retryTimers_scheduleNormal] at ht
    exact absurd hid (hr r t ht)

end Keeps

namespace KeysOwned

variable {env : Env} {m m' : Machine} {job : JobEntry} {f : JobEntry → JobEntry}
  {rest : List (Nat × TimerEntry)}

/-- A key stands for one timer. -/
theorem finds_unique (h : KeysOwned m) {e e' : TimerEntry} (he : m.Finds key e)
    (he' : m.Finds key e') : e = e' := by
  rcases he with he | he <;> rcases he' with he' | he'
  · rw [he] at he'
    exact Option.some.inj he'
  · rw [(h.dead key e' he').2] at he
    cases he
  · rw [(h.dead key e he).2] at he'
    cases he'
  · -- both in the batch: its keys do not repeat
    exact Option.some.inj (((find_eq_some_iff h.once).mpr he).symm.trans
      ((find_eq_some_iff h.once).mpr he'))

/-- What is behind a stored key. -/
theorem of_finds (h : KeysOwned m) (hk : m.actor.Keeps id key owner) (hf : m.Finds key entry) :
    entry.IsOf id owner ∧ m.Current key entry := by
  obtain ⟨e, he, hof⟩ := h.owned id key owner hk
  rwa [h.finds_unique hf he]

/-- A key is stored once. -/
theorem owner_unique (h : KeysOwned m) {id' : JobId} (hk : m.actor.Keeps id key owner)
    (hk' : m.actor.Keeps id' key owner') : id = id' ∧ owner = owner' := by
  obtain ⟨e, he, hof, -⟩ := h.owned id key owner hk
  exact hof.unique (h.of_finds hk' he).1

theorem ownKeys (h : KeysOwned m) (id : JobId) : OwnKeys m.actor id := by
  have hlt : ∀ {key owner}, m.actor.Keeps id key owner → key < m.actor.timers.nextKey := by
    intro key owner hk
    obtain ⟨e, he | he, -⟩ := h.owned id key owner hk
    · exact lt_nextKey he
    · exact (h.dead key e he).1
  refine ⟨fun job key hj hk => ?_, fun r t ht hid => ?_⟩
  · have hkeeps : m.actor.Keeps id key none := ⟨job, hj, hk⟩
    exact ⟨hlt hkeeps, fun e he => (h.of_finds hkeeps (.inl he)).1⟩
  · have hkeeps : m.actor.Keeps id t.key (some r) := ⟨t, ht, hid, rfl⟩
    exact ⟨hlt hkeeps, fun e he => (h.of_finds hkeeps (.inl he)).1⟩

/-! ## 2. What a step may change -/

/-- The Job keeps its version, and is not switched off in the middle of a batch. -/
def Follows (m m' : Machine) (id : JobId) : Prop :=
  ∀ job, m.actor.jobs.get id = some job → ∃ job', m'.actor.jobs.get id = some job' ∧
    job'.version = job.version ∧ (m.popped = [] ∨ (job.state = .enabled → job'.state = .enabled))

theorem Follows.of_eq (h : m'.actor.jobs.get id = m.actor.jobs.get id) : Follows m m' id :=
  fun job hj => ⟨job, h.trans hj, rfl, .inr fun hs => hs⟩

theorem Follows.modify (hjobs : m'.actor.jobs = m.actor.jobs.modify jobId f)
    (hf : ∀ job, (f job).version = job.version ∧ (m.popped = [] ∨ (f job).state = job.state))
    (id : JobId) : Follows m m' id := by
  intro job hj
  rw [hjobs, get_modify]
  split
  · rw [hj]
    exact ⟨f job, rfl, (hf job).1, (hf job).2.imp_right fun hs he => hs.trans he⟩
  · exact ⟨job, hj, rfl, .inr fun hs => hs⟩

section

variable (h : KeysOwned m)
include h

/-- A key whose owner, timer and Job are still there. -/
theorem still (hk : m.actor.Keeps id key owner)
    (hstay : ∀ e, e.jobId = id → m.actor.timers.get key = some e → m'.actor.timers.get key = some e)
    (hpp : ∀ e, (key, e) ∈ m.popped → (key, e) ∈ m'.popped) (hjob : Follows m m' id) :
    ∃ entry, m'.Finds key entry ∧ entry.IsOf id owner ∧ m'.Current key entry := by
  obtain ⟨entry, hf, hof, job, hj, hv, hs⟩ := h.owned id key owner hk
  have hid := hof.jobId_eq
  obtain ⟨job', hj', hv', hs'⟩ := hjob job (hid ▸ hj)
  refine ⟨entry, hf.imp (hstay entry hid) (hpp entry), hof, job', hid ▸ hj', hv'.trans hv,
    fun hnone => ?_⟩
  rcases hf with hf | hf
  · rw [hstay entry hid hf] at hnone
    cases hnone
  · rcases hs' with hnil | hs'
    · rw [hnil] at hf
      cases hf
    · exact hs' (hs (h.dead key entry hf).2)

/-- **The frame rule.** Owners and keys may go, timers may go that nobody stores any more. -/
theorem change (hpp : m'.popped = m.popped)
    (hkeeps : ∀ id key owner, m'.actor.Keeps id key owner → m.actor.Keeps id key owner ∧
      ∀ e, m.actor.timers.get key = some e → m'.actor.timers.get key = some e)
    (hjobs : ∀ id, Follows m m' id) (hnext : m'.actor.timers.nextKey = m.actor.timers.nextKey)
    (hdead : ∀ key, m.actor.timers.get key = none → m'.actor.timers.get key = none) :
    KeysOwned m' where
  owned := fun id key owner hk => by
    obtain ⟨hold, hstay⟩ := hkeeps id key owner hk
    exact h.still hold (fun e _ => hstay e) (fun e he => hpp ▸ he) (hjobs id)
  dead := fun key entry hp => by
    obtain ⟨hlt, hd⟩ := h.dead key entry (hpp ▸ hp)
    exact ⟨hnext ▸ hlt, hdead key hd⟩
  once := hpp ▸ h.once

/-- One Job changes, and stores its old key or none. -/
theorem touch (hpp : m'.popped = m.popped)
    (hjobs : m'.actor.jobs = m.actor.jobs.modify jobId f)
    (hkey : ∀ job, (f job).normalTimerKey = none ∨ (f job).normalTimerKey = job.normalTimerKey)
    (hf : ∀ job, (f job).version = job.version ∧ (m.popped = [] ∨ (f job).state = job.state))
    (hretry : m'.actor.retryTimers = m.actor.retryTimers)
    (htimers : m'.actor.timers = m.actor.timers) : KeysOwned m' := by
  refine h.change hpp (fun id key owner hk => ⟨?_, fun _ hg => by rwa [htimers]⟩)
    (Follows.modify hjobs hf) (by rw [htimers]) fun _ hg => by rwa [htimers]
  refine hk.mono (fun job' hj' hk' => ?_) fun r t ht _ => hretry ▸ ht
  rw [hjobs, get_modify] at hj'
  split at hj'
  · obtain ⟨job, hj, rfl⟩ := map_eq_some_iff.mp hj'
    rcases hkey job with hn | hn
    · rw [hn] at hk'
      cases hk'
    · exact ⟨job, hj, hn ▸ hk'⟩
  · exact ⟨job', hj', hk'⟩

/-- The Jobs, timers and retry timers are as they were. -/
theorem frame (hpp : m'.popped = m.popped)
    (hjobs : ∀ id, m'.actor.jobs.get id = m.actor.jobs.get id)
    (hretry : m'.actor.retryTimers = m.actor.retryTimers)
    (htimers : m'.actor.timers = m.actor.timers) : KeysOwned m' := by
  refine h.change hpp (fun id key owner hk => ⟨?_, fun _ hg => by rwa [htimers]⟩)
    (fun id => .of_eq (hjobs id)) (by rw [htimers]) fun _ hg => by rwa [htimers]
  exact hk.mono (fun job' hj' hk' => ⟨job', hjobs id ▸ hj', hk'⟩) fun r t ht _ => hretry ▸ ht

/-! ## 3. Timers are set and removed -/

/-- **A timer is set**, and the key its owner stored before is gone. -/
theorem renew {old : Option Nat} (hof : entry.IsOf id owner)
    (hpp : m'.popped = m.popped)
    (htimers : m'.actor.timers = (m.actor.timers.removeKey old).insertAt entry)
    (hold : ∀ key, old = some key →
      ∃ id', m.actor.Keeps id' key owner ∧ ¬ m'.actor.Keeps id' key owner)
    (hkeeps : ∀ id' key owner', m'.actor.Keeps id' key owner' →
      (id' = id ∧ owner' = owner ∧ key = m.actor.timers.nextKey) ∨ m.actor.Keeps id' key owner')
    (hjobs : ∀ id, Follows m m' id) (hcur : m'.actor.atVersion id entry.version = true) :
    KeysOwned m' where
  owned := fun id' key owner' hk => by
    rcases hkeeps id' key owner' hk with ⟨rfl, rfl, rfl⟩ | hbefore
    · obtain ⟨job, hj, hv⟩ := atVersion_iff.mp hcur
      have hget : m'.actor.timers.get m.actor.timers.nextKey = some entry := by
        rw [htimers]
        exact get_replace.mpr (.inl ⟨rfl, rfl⟩)
      refine ⟨entry, .inl hget, hof, job, hof.jobId_eq.symm ▸ hj, hv, fun hnone => ?_⟩
      rw [hget] at hnone
      cases hnone
    · refine h.still hbefore (fun e _ hg => ?_) (fun e he => hpp ▸ he) (hjobs id')
      rw [htimers]
      refine get_replace.mpr (.inr ⟨fun hkey => ?_, hg⟩)
      obtain ⟨id₀, hown, hgone⟩ := hold key hkey
      obtain ⟨rfl, rfl⟩ := h.owner_unique hown hbefore
      exact hgone hk
  dead := fun key e hp => by
    obtain ⟨hlt, hd⟩ := h.dead key e (hpp ▸ hp)
    rw [htimers, nextKey_insertAt, nextKey_removeKey]
    refine ⟨Nat.lt_succ_of_lt hlt, eq_none_iff_forall_not_mem.mpr fun e' he' => ?_⟩
    rcases get_replace.mp he' with ⟨rfl, -⟩ | ⟨-, hg⟩
    · exact absurd hlt (Nat.lt_irrefl _)
    · rw [hd] at hg
      cases hg
  once := hpp ▸ h.once

theorem scheduleNormal (id : JobId) (runAt : DateTime) {kind : TimerKind}
    (hkind : kind = .normal ∨ kind = .runNow) :
    KeysOwned { m with actor := m.actor.scheduleNormal env id runAt kind } := by
  cases hj : m.actor.jobs.get id with
  | none =>
    unfold SchedulerActor.scheduleNormal
    rw [hj]
    exact h
  | some job =>
    have hget := get_jobs_scheduleNormal env m.actor id runAt kind
    have hown : (m.actor.scheduleNormal env id runAt kind).jobs.get id =
        some (scheduleEntry m.actor.timers.nextKey runAt job) := by
      rw [hget, if_pos rfl, hj]
      rfl
    have hof : TimerEntry.IsOf ⟨id, job.version, runAt, kind⟩ id none := ⟨rfl, hkind⟩
    refine h.renew hof rfl (timers_scheduleNormal env m.actor id runAt kind hj)
      (fun key hk => ⟨id, ⟨job, hj, hk⟩, ?_⟩) (fun id' key owner' hk => ?_)
      (fun id' job' hj' => ?_) (atVersion_iff.mpr ⟨_, hown, rfl⟩)
    · rintro ⟨job', hj', hk'⟩
      cases hown.symm.trans hj'
      cases hk'
      exact absurd ((h.ownKeys id).normal job _ hj hk).1 (Nat.lt_irrefl _)
    · cases owner' with
      | none =>
        obtain ⟨job', hj', hk'⟩ := hk
        by_cases hid : id' = id
        · subst hid
          cases hown.symm.trans hj'
          exact .inl ⟨rfl, rfl, (Option.some.inj hk').symm⟩
        · exact .inr ⟨job', ((hget id').trans (if_neg hid)).symm.trans hj', hk'⟩
      | some =>
        obtain ⟨t, ht, hrow⟩ := hk
        rw [retryTimers_scheduleNormal] at ht
        exact .inr ⟨t, ht, hrow⟩
    · rw [hget]
      split
      · rw [hj']
        exact ⟨_, rfl, rfl, .inr fun hs => hs⟩
      · exact ⟨job', hj', rfl, .inr fun hs => hs⟩

theorem scheduleRetry {version : Nat}
    (hv : m.actor.atVersion id version = true) (runId : RunId) (scheduledAt : DateTime)
    (attempt : Nat) (runAt : DateTime) : KeysOwned
      { m with actor := m.actor.scheduleRetry env id version runId scheduledAt attempt runAt } := by
  have hrows := retryTimers_scheduleRetry env m.actor id version runId scheduledAt attempt runAt
  have hof : TimerEntry.IsOf ⟨id, version, runAt, .retry runId scheduledAt attempt⟩ id
      (some runId) := ⟨rfl, _, _, rfl⟩
  refine h.renew hof rfl rfl (fun key hk => ?_) (fun id' key owner' hk => ?_)
    (fun id' => .of_eq rfl) hv
  · obtain ⟨t, ht, rfl⟩ := map_eq_some_iff.mp hk
    refine ⟨t.jobId, ⟨t, ht, rfl, rfl⟩, ?_⟩
    rintro ⟨t', ht', -, hk'⟩
    rw [hrows, get_insert, if_pos rfl] at ht'
    cases ht'
    have hlt := ((h.ownKeys t.jobId).retry runId t ht rfl).1
    exact absurd hlt (hk' ▸ Nat.lt_irrefl _)
  · cases owner' with
    | none => exact .inr hk
    | some =>
      obtain ⟨t, ht, hid, hk'⟩ := hk
      rw [hrows, get_insert_eq_some] at ht
      rcases ht with ⟨rfl, rfl⟩ | ⟨-, ht⟩
      · exact .inl ⟨hid.symm, rfl, hk'.symm⟩
      · exact .inr ⟨t, ht, hid, hk'⟩

theorem clearRetryTimers (id : JobId) :
    KeysOwned { m with actor := m.actor.clearRetryTimers id } := by
  have hget := @strip_get m.actor id none
  have hrow := @strip_retryTimers m.actor id none
  refine h.change rfl (fun id' key owner hk => ?_) (fun _ => .of_eq rfl)
    (@nextKey_strip m.actor id none) fun key hnone => ?_
  · have hold : m.actor.Keeps id' key owner :=
      hk.mono (fun job hj hk => ⟨job, hj, hk⟩) fun r t ht _ => ((hrow r t).mp ht).1
    refine ⟨hold, fun e he => (hget key e).mpr ⟨he, by simp, fun r t ht hid hkey => ?_⟩⟩
    -- the key of a row that is gone is stored nowhere else
    have hgone : m.actor.Keeps t.jobId key (some r) := ⟨t, ht, rfl, hkey⟩
    obtain ⟨rfl, rfl⟩ := h.owner_unique hold hgone
    obtain ⟨t', ht', hid', -⟩ := hk
    exact ((hrow r t').mp ht').2 (hid'.trans hid)
  · refine eq_none_iff_forall_not_mem.mpr fun e he => ?_
    rw [((hget key e).mp he).1] at hnone
    cases hnone

/-! ## 4. A Job is changed as a whole -/

/-- **An operation on one Job**, which has set anew what it stores. -/
theorem of_only (honly : Only id m.actor a') (hown : Renewed a' id) :
    KeysOwned { m with actor := a' } where
  owned := fun id' key owner hk => by
    by_cases hid : id' = id
    · subst hid
      obtain ⟨entry, hget, hof, hcur⟩ := hown key owner hk
      obtain ⟨job, hj, hv⟩ := atVersion_iff.mp hcur
      refine ⟨entry, .inl hget, hof, job, hof.jobId_eq.symm ▸ hj, hv, fun hnone => ?_⟩
      cases hget.symm.trans hnone
    · have hold : m.actor.Keeps id' key owner :=
        hk.mono (fun job hj hk => ⟨job, honly.jobs id' hid ▸ hj, hk⟩)
          fun r t ht hrow => (honly.retryTimers r t (hrow ▸ hid)).mp ht
      exact h.still hold (fun e he => (honly.timers key e (he ▸ hid)).mpr) (fun _ he => he)
        (.of_eq (honly.jobs id' hid))
  dead := fun key e hp => by
    obtain ⟨hlt, hd⟩ := h.dead key e hp
    refine ⟨Nat.lt_of_lt_of_le hlt honly.nextKey,
      eq_none_iff_forall_not_mem.mpr fun e' he' => ?_⟩
    have hbefore : m.actor.timers.get key = some e' := by
      by_cases hid : e'.jobId = id
      · exact (honly.fresh key e' hid he').resolve_right (Nat.not_le_of_lt hlt)
      · exact (honly.timers key e' hid).mp he'
    rw [hd] at hbefore
    cases hbefore
  once := h.once

section

variable (hj : m.actor.jobs.get id = some job)
include hj

theorem commitDisable (version : Nat) (reason : String) :
    KeysOwned { m with actor := m.actor.commitDisable env id job version reason } := by
  refine h.of_only (.commitDisable (h.ownKeys id) hj version reason)
    (.of_none (fun job' hj' => ?_) no_retry_after_clear)
  obtain ⟨_, -, rfl⟩ := get_modify_self hj'
  rfl

theorem commitDelete (cancelRunning : Bool) :
    KeysOwned { m with actor := m.actor.commitDelete env id job cancelRunning } := by
  obtain ⟨-, hrows, -⟩ := Only.commitDelete_work env m.actor id job cancelRunning
  refine h.of_only (.commitDelete (h.ownKeys id) hj cancelRunning)
    (.of_none (fun job' hj' => ?_) fun r t ht => no_retry_after_clear r t (hrows ▸ ht))
  rw [get_commitDelete, if_pos rfl] at hj'
  cases hj'

theorem commitUpdate (patch : JobPatch) (plan : JobUpdatePlan) :
    KeysOwned { m with actor := m.actor.commitUpdate env id patch plan job } := by
  have hset : Renewed ((m.actor.applyPatch env id patch plan job).scheduleUpdated env id plan job)
      id := by
    unfold scheduleUpdated
    split
    · refine .scheduleNormal env ?_ _ ?_
      · exact no_retry_after_clear
      · split
        · exact .inr rfl
        · exact .inl rfl
    · refine .of_none (fun job' hj' => ?_) no_retry_after_clear
      obtain ⟨_, -, rfl⟩ := get_modify_self hj'
      exact Only.updateWork_key patch plan _ job
  refine h.of_only (.commitUpdate (h.ownKeys id) hj patch plan) ?_
  unfold SchedulerActor.commitUpdate cancelReplaced
  split <;> exact hset

end

theorem commitEnable (version : Nat) (now next : DateTime) : KeysOwned
      { m with actor := (m.actor.dropWork id).tick.commitEnable env id version now next } := by
  have hdropped : KeysOwned { m with actor := (m.actor.dropWork id).tick } :=
    (h.clearRetryTimers id).frame rfl (fun _ => rfl) rfl rfl
  refine hdropped.of_only (.commitEnable (hdropped.ownKeys id) version now next) ?_
  exact Renewed.scheduleNormal (a := (m.actor.dropWork id).tick.modifyJob id (enableEntry version now))
    env no_retry_after_clear next (.inl rfl)

theorem installJob (hj : m.actor.jobs.get id = none) {entry : JobEntry}
    (hkey : entry.normalTimerKey = none) (enabled : Bool) (firstRun : DateTime) :
    KeysOwned { m with actor := m.actor.installJob env id entry enabled firstRun } := by
  -- a retry of this Job would need the Job
  have hretry : ∀ r t, m.actor.retryTimers.get r = some t → t.jobId ≠ id := by
    intro r t ht hid
    obtain ⟨e, -, hof, job, hj', -⟩ := h.owned id t.key (some r) ⟨t, ht, hid, rfl⟩
    rw [hof.jobId_eq, hj] at hj'
    cases hj'
  refine h.of_only (.installJob (h.ownKeys id) entry hkey enabled firstRun) ?_
  cases enabled with
  | true =>
    exact Renewed.scheduleNormal (a := { m.actor with jobs := m.actor.jobs.insert id entry }) env
      hretry firstRun (.inl rfl)
  | false =>
    refine .of_none (fun job' hj' => ?_) hretry
    rcases get_insert_eq_some.mp hj' with ⟨-, rfl⟩ | ⟨hne, -⟩
    · exact hkey
    · exact absurd rfl hne

end

/-! ## 5. Expired timers -/

section

variable (h : KeysOwned m) (hp : m.popped = (key, entry) :: rest)
include h hp

/-- The first timer of the batch is done with, and nobody stores its key. -/
theorem dropHead (hfree : ∀ id owner, ¬ m.actor.Keeps id key owner) :
    KeysOwned { m with popped := rest } := by
  have honce := h.once
  rw [hp, List.map_cons, List.nodup_cons] at honce
  refine ⟨fun id k owner hk => h.still hk (fun _ _ hg => hg) (fun e he => ?_) (.of_eq rfl),
    fun k e hm => h.dead k e (hp ▸ List.mem_cons_of_mem _ hm), honce.2⟩
  rw [hp] at he
  rcases List.mem_cons.mp he with he | he
  · cases he
    exact absurd hk (hfree id owner)
  · exact he

/-- An ignored timer was nobody's: its owner would be enabled. -/
theorem ignore (hi : Ignored m.actor entry) : KeysOwned { m with popped := rest } := by
  have hmem : (key, entry) ∈ m.popped := hp ▸ List.mem_cons_self
  refine h.dropHead hp fun id owner hk => ?_
  obtain ⟨-, job, hj, hv, hs⟩ := h.of_finds hk (.inr hmem)
  exact (hi job hj).elim (· hv) (· (hs (h.dead key entry hmem).2))

theorem fire (hk : entry.kind = .normal ∨ entry.kind = .runNow) : KeysOwned
      { m with actor := m.actor.modifyJob entry.jobId clearNormalTimer, popped := rest } := by
  have hcleared : KeysOwned { m with actor := m.actor.modifyJob entry.jobId clearNormalTimer } :=
    h.touch rfl rfl (fun _ => .inl rfl) (fun _ => ⟨rfl, .inr rfl⟩) rfl rfl
  refine hcleared.dropHead hp fun id owner hkeeps => ?_
  have hnormal : entry.IsOf entry.jobId none := ⟨rfl, hk⟩
  have hof := hcleared.of_finds hkeeps (.inr (hp ▸ List.mem_cons_self))
  obtain ⟨rfl, rfl⟩ := hnormal.unique hof.1
  obtain ⟨job, hj, hkey⟩ := hkeeps
  obtain ⟨_, -, rfl⟩ := get_modify_self hj
  cases hkey

theorem fireRetry {runId : RunId} {scheduledAt : DateTime} {attempt : Nat}
    (hk : entry.kind = .retry runId scheduledAt attempt) : KeysOwned { m with
        actor := { m.actor with retryTimers := m.actor.retryTimers.remove runId }
        popped := rest } := by
  have hremoved : KeysOwned
      { m with actor := { m.actor with retryTimers := m.actor.retryTimers.remove runId } } := by
    refine h.change rfl (fun id key owner hk => ⟨?_, fun _ hg => hg⟩) (fun _ => .of_eq rfl) rfl
      fun _ hg => hg
    exact hk.mono (fun job hj hk => ⟨job, hj, hk⟩) fun r t ht _ => (get_remove_eq_some.mp ht).2
  refine hremoved.dropHead hp fun id owner hkeeps => ?_
  have hretry : entry.IsOf entry.jobId (some runId) := ⟨rfl, _, _, hk⟩
  have hof := hremoved.of_finds hkeeps (.inr (hp ▸ List.mem_cons_self))
  obtain ⟨rfl, rfl⟩ := hretry.unique hof.1
  obtain ⟨t, ht, -⟩ := hkeeps
  exact (get_remove_eq_some.mp ht).1 rfl

end

/-- Timers leave the queue with the batch, each while its Job is enabled or at another version. -/
theorem expire (h : KeysOwned m) (hg : m.actor.timers.get key = some entry)
    (henabled : ∀ id owner job, m.actor.Keeps id key owner →
      m.actor.jobs.get entry.jobId = some job → job.version = entry.version →
      job.state = .enabled) : KeysOwned { m with
        actor := { m.actor with timers := m.actor.timers.tryRemove key }
        popped := m.popped ++ [(key, entry)] } where
  owned := fun id k owner hk => by
    by_cases hkey : k = key
    · subst hkey
      obtain ⟨hof, job, hj, hv, -⟩ := h.of_finds hk (.inl hg)
      exact ⟨entry, .inr (List.mem_append_right _ (List.mem_singleton_self _)), hof, job, hj, hv,
        fun _ => henabled id owner job hk hj hv⟩
    · refine h.still hk (fun e _ he => ?_) (fun e he => List.mem_append_left _ he) (.of_eq rfl)
      rw [get_tryRemove, if_neg hkey, he]
  dead := fun k e hm => by
    rcases List.mem_append.mp hm with hm | hm
    · obtain ⟨hl, hd⟩ := h.dead k e hm
      exact ⟨hl, by simp [hd]⟩
    · cases List.mem_singleton.mp hm
      have hl : key < m.actor.timers.nextKey := lt_nextKey hg
      exact ⟨hl, by simp⟩
  once := by
    rw [List.map_append, List.nodup_append]
    refine ⟨h.once, by simp, fun k hk k' hk' he => ?_⟩
    obtain ⟨⟨k₀, e₀⟩, hm, rfl⟩ := List.mem_map.mp hk
    have hkey : k' = key := by simpa using hk'
    have hd := (h.dead k₀ e₀ hm).2
    rw [show k₀ = key from he.trans hkey, hg] at hd
    cases hd

/-! ## 6. Every step -/

theorem step {kind : StepKind} (hstep : Step env kind m m') (hx : kind ≠ .expire)
    (h : KeysOwned m) : KeysOwned m' := by
  cases hstep with
  | expire => exact absurd rfl hx
  | ignore _ key entry rest hp hi => exact h.ignore hp hi
  | fire _ key entry rest job hp hj hv he hk => exact h.fire hp hk
  | fireRetry _ key entry rest job runId scheduledAt attempt batchId hp hj hv he hk =>
    exact (h.fireRetry hp hk).frame rfl (fun _ => rfl) rfl rfl
  | scheduleNormal _ jobId runAt kind hk => exact h.scheduleNormal jobId runAt hk
  | clearRetries _ jobId => exact h.clearRetryTimers jobId
  | block | dropReplaceable | unblock | finish | fail =>
    exact h.touch rfl rfl (fun _ => .inr rfl) (fun _ => ⟨rfl, .inr rfl⟩) rfl rfl
  | start _ =>
    unfold spawnExecution
    split
    · exact h.frame rfl (fun _ => rfl) rfl rfl
    · split
      · exact h.frame rfl (fun _ => rfl) rfl rfl
      · exact h.touch rfl rfl (fun _ => .inr rfl) (fun _ => ⟨rfl, .inr rfl⟩) rfl rfl
  | retry _ task rest runAt hf hv =>
    exact (h.scheduleRetry hv task.runId task.scheduledAt (task.attempt + 1) runAt).frame rfl
      (fun _ => rfl) rfl rfl
  | succeed _ jobId hp | complete _ jobId now job hp =>
    exact h.touch rfl rfl (fun _ => .inr rfl) (fun _ => ⟨rfl, .inl hp⟩) rfl rfl
  | rehash _ jobs hsame => exact h.frame rfl hsame.get_eq rfl rfl
  | disable _ jobId job reason hj => exact h.commitDisable hj _ reason
  | update _ jobId job patch plan hj => exact h.commitUpdate hj patch plan
  | enable _ jobId job now next => exact h.commitEnable _ now next
  | delete _ jobId job cancelRunning hj => exact h.commitDelete hj cancelRunning
  | install _ jobId generation enabled trigger task options now firstRun hj =>
    exact h.installJob hj rfl enabled firstRun
  | silent | configure | emit | cancel | draw | queue | drop | shrinkReady | lose | forget =>
    exact h.frame rfl (fun _ => rfl) rfl rfl

end KeysOwned
/-! ## 7. Runs -/

/-- Whether a Job or the retry index stores the key. -/
def SchedulerActor.storesKey (a : SchedulerActor) (key : Nat) : Bool :=
  a.jobs.values.any (fun job => job.normalTimerKey = some key) ||
    a.retryTimers.values.any (fun timer => timer.key = key)

theorem storesKey_of_keeps (h : a.Keeps id key owner) : a.storesKey key = true := by
  rw [storesKey, Bool.or_eq_true, List.any_eq_true, List.any_eq_true]
  cases owner with
  | none =>
    obtain ⟨job, hj, hk⟩ := h
    exact .inl ⟨job, mem_values_iff.mpr ⟨id, hj⟩, by simpa using hk⟩
  | some r =>
    obtain ⟨t, ht, -, hk⟩ := h
    exact .inr ⟨t, mem_values_iff.mpr ⟨r, ht⟩, by simpa using hk⟩

/-- No timer whose key is stored expires while its Job, still at the timer's version, is not
    enabled. -/
def TimerGuard (a : SchedulerActor) : Message → Prop
  | .expired keys => ∀ key ∈ keys.take a.config.dueBatchSize, a.storesKey key = true →
      ∀ entry ∈ a.timers.get key, ∀ job ∈ a.jobs.get entry.jobId,
        job.version = entry.version → job.state = .enabled
  | _ => True

instance (a : SchedulerActor) : ∀ message, Decidable (TimerGuard a message)
  | .expired keys => inferInstanceAs (Decidable (∀ key ∈ keys.take a.config.dueBatchSize, _))
  | .command _ | .completion _ _ _ | .joinError _ | .maintenance | .rehash _ => .isTrue trivial

/-- Every stored key is alive. -/
def SchedulerActor.KeysLive (a : SchedulerActor) : Prop :=
  (∀ jobId job key, a.jobs.get jobId = some job → job.normalTimerKey = some key →
      a.timers.contains key = true) ∧
    ∀ runId timer, a.retryTimers.get runId = some timer → a.timers.contains timer.key = true

theorem SchedulerActor.KeysLive.reanchorTimers_eq (h : a.KeysLive) : a.reanchorTimers = a := by
  unfold reanchorTimers
  rw [if_pos]
  rw [Bool.and_eq_true, List.all_eq_true, List.all_eq_true]
  refine ⟨fun job hm => ?_, fun timer hm => ?_⟩
  · obtain ⟨jobId, hj⟩ := mem_values_iff.mp hm
    unfold resettable
    split
    · exact h.1 jobId job _ hj ‹_›
    · rfl
  · obtain ⟨runId, hr⟩ := mem_values_iff.mp hm
    exact h.2 runId timer hr

namespace KeysOwned

theorem live (h : KeysOwned (.idle a)) : a.KeysLive := by
  have hlive : ∀ {id key owner}, a.Keeps id key owner → a.timers.contains key = true := by
    intro id key owner hk
    obtain ⟨_, hf, -⟩ := h.owned id key owner hk
    exact DelayQueue.contains_iff.mpr ⟨_, hf.resolve_right (List.not_mem_nil)⟩
  refine ⟨fun id job key hj hk => ?_, fun r t ht => ?_⟩
  · have hkeeps : a.Keeps id key none := ⟨job, hj, hk⟩
    exact hlive hkeeps
  · have hkeeps : a.Keeps t.jobId t.key (some r) := ⟨t, ht, rfl, rfl⟩
    exact hlive hkeeps

/-- The whole batch leaves the queue. -/
theorem popExpired {hs : List PendingExecution} {fs : List SpawnedTask} :
    ∀ (keys : List Nat) (a : SchedulerActor) (pp : List (Nat × TimerEntry)),
      (∀ key ∈ keys, ∀ entry, a.timers.get key = some entry → ∀ id owner job,
        a.Keeps id key owner → a.jobs.get entry.jobId = some job →
        job.version = entry.version → job.state = .enabled) → KeysOwned ⟨a, pp, hs, fs⟩ → KeysOwned
        ⟨{ a with timers := (SchedulerActor.popExpired a.timers keys).2 },
          pp ++ (SchedulerActor.popExpired a.timers keys).1, hs, fs⟩
  | [], a, pp, _, h => by simpa only [SchedulerActor.popExpired, List.append_nil] using h
  | key :: keys, a, pp, henabled, h => by
    simp only [SchedulerActor.popExpired]
    cases hg : a.timers.get key with
    | none => exact popExpired keys a pp (fun k hk => henabled k (List.mem_cons_of_mem _ hk)) h
    | some entry =>
      have hexp := h.expire hg (henabled key List.mem_cons_self entry hg)
      have hrest := popExpired keys _ _ (fun k hk e hget => ?_) hexp
      · simpa only [List.append_assoc, List.singleton_append] using hrest
      · -- a timer still there was there before
        rw [get_tryRemove] at hget
        split at hget
        · cases hget
        · exact henabled k (List.mem_cons_of_mem _ hk) e hget

theorem steps (hsteps : Steps env (· ≠ .expire) m m') (h : KeysOwned m) : KeysOwned m' :=
  hsteps.keep (KeysOwned) (fun _ _ _ hx hstep => step hstep hx) h

theorem handle (message : Message) (hg : TimerGuard a message) (h : KeysOwned (.idle a)) :
    KeysOwned (.idle (a.handle env message)) := by
  by_cases ht : ∀ keys, message ≠ .expired keys
  · exact steps (handle_steps message fun _ hk he => (hk.timer (.inl he)).elim ht) h
  · obtain ⟨keys, rfl⟩ : ∃ keys, message = .expired keys := by simpa using ht
    rw [SchedulerActor.handle, handleExpiredBatch]
    split
    · exact h
    · have hpop := h.popExpired (keys.take a.config.dueBatchSize) a []
        fun key hk entry he id owner job hs hj =>
          hg key hk (storesKey_of_keeps hs) entry he job hj
      refine steps (handleTimers_steps (by simp) (by simp) _ _ _
        (batchDisablesOnly_of_all (by simp) _ _ _)) ?_
      exact hpop.frame rfl (fun _ => rfl) rfl rfl

theorem turn (message : Message) (hg : TimerGuard a message) (h : KeysOwned (.idle a)) :
    KeysOwned (.idle (a.turn env message)) :=
  turn_keeps (fun a => KeysOwned (.idle a)) (h.handle message hg)
    (fun a ha => ha.steps (settle_steps (by simp) (by simp) (by simp) a)) h

theorem start (config : SchedulerConfig) : KeysOwned (.idle (start env config)) where
  owned := fun _ _ owner hk => by
    cases owner with
    | none =>
      obtain ⟨_, hj, -⟩ := hk
      cases hj
    | some =>
      obtain ⟨_, ht, -⟩ := hk
      cases ht
  dead := fun _ _ hm => by cases hm
  once := List.nodup_nil

end KeysOwned

/-- **Stored keys stay alive**: in every run in which no stored timer expires on a Job that is not
    enabled, every key a Job or the retry index stores is in the delay queue, and the maintenance
    tick resets them all without a panic. -/
theorem keys_live_while_guarded (env : Env) (config : SchedulerConfig) (messages : List Message)
    (h : Along (turn env) TimerGuard (start env config) messages) :
    Throughout (turn env) (fun a => a.KeysLive ∧ a.reanchorTimers = a) (start env config)
      messages := by
  refine throughout_of_invariant
    (fun a message (hi : KeysOwned (.idle a)) hg => hi.turn message hg) (fun a hi => ?_)
    (KeysOwned.start config) h
  exact ⟨hi.live, hi.live.reanchorTimers_eq⟩

section Runs

def cleanup : TaskBinding := ⟨⟨"cleanup", .action, "tmp"⟩, .cooperative⟩

def tomorrow : Trigger := ⟨.once (86400 * 10 ^ 9), .fireOnce, none⟩

def oneSlot : SchedulerConfig := { globalConcurrency := Nat.toPNat' 1 }

def urgent : JobPatch := { priority := some ⟨7, by decide⟩ }

def execution (jobId version runId : Nat) : SpawnedTask :=
  ⟨jobId, version, runId, 1, 0, cleanup.inner, none, .cooperative⟩

/-- Two one-shot Jobs for tomorrow are both told to run now; there is one slot. While the second
    waits for it, its priority is changed: its waiting execution moves on to the new version, and
    it gets a timer for tomorrow again. Then both executions succeed, and both Jobs are Completed. -/
def completedEarly : List Message :=
  [.command (.add (some 1) 1 true tomorrow cleanup {}),
   .command (.add (some 2) 1 true tomorrow cleanup {}),
   .command (.update 1 1 { reschedule := .runNow }),
   .command (.update 2 1 { reschedule := .runNow }),
   .expired [2, 3],
   .command (.update 2 2 urgent),
   .completion (execution 1 2 0) 0 (.finished .completed),
   .completion (execution 2 3 1) 0 (.finished .completed)]

/-- Until tomorrow all stored keys are alive, that of the second Job's timer among them. -/
theorem keys_live_until_tomorrow :
    Along (turn .still) TimerGuard (start .still oneSlot) completedEarly ∧
      Throughout (turn .still) (fun a => a.KeysLive ∧ a.reanchorTimers = a) (start .still oneSlot)
        completedEarly := by
  have h : Along (turn .still) TimerGuard (start .still oneSlot) completedEarly := by decide +kernel
  exact ⟨h, keys_live_while_guarded .still oneSlot completedEarly h⟩

/-- **A dead key is stored.** Tomorrow the timer expires and is ignored, because its Job is
    Completed; its key stays with the Job. The next maintenance tick kills the scheduler. -/
theorem completed_job_kills_scheduler : validateConfig oneSlot = .ok () ∧
      ¬ (after .still oneSlot (completedEarly ++ [.expired [4]])).KeysLive ∧
      (after .still oneSlot (completedEarly ++ [.expired [4], .maintenance])).panicked = true := by
  refine ⟨by decide, fun h => ?_, by decide +kernel⟩
  have hkey : ((after .still oneSlot (completedEarly ++ [.expired [4]])).jobs.get 2).map
      (·.normalTimerKey) = some (some 4) := by decide +kernel
  obtain ⟨job, hj, hk⟩ := map_eq_some_iff.mp hkey
  have hlive := h.1 2 job 4 hj hk
  cases hlive

end Runs

end Smalux.Scheduler
