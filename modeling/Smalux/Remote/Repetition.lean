/-
  Subject:   A command that is sent again.

  The controller remembers the answers it gave last, at most 1024 of them, in the order in which they
  were given. A command whose answer is among them is not carried out again.

  * `recent`, `Remembers` -- the answers as a list, and what the controller keeps of it;
  * `Remembers.noteResult` -- one more answer, and the oldest one goes;
  * `command_idempotent` -- sent again, it gets its first answer and does nothing.
-/
import Smalux.Remote.NetEffect

namespace Smalux.Remote

open Lib Scheduler SchedulerActor Table List Proto

/-! ## 1. The answers remembered -/

/-- The newest answers, the oldest of them first. -/
def recent (answers : List (Uuid × JobCommandResult)) :
    List (Uuid × JobCommandResult) :=
  answers.drop (answers.length - cacheCapacity)

/-- One more answer pushes out the oldest one, if there are too many. -/
theorem recent_append (answers : List (Uuid × JobCommandResult))
    (answer : Uuid × JobCommandResult) : recent (answers ++ [answer]) =
      (recent answers ++ [answer]).drop ((recent answers).length + 1 - cacheCapacity) := by
  unfold recent
  rw [length_append, length_singleton, length_drop]
  generalize cacheCapacity = capacity
  rcases Nat.lt_or_ge answers.length capacity with hfew | hmany
  · rw [Nat.sub_eq_zero_of_le (Nat.le_of_lt hfew), drop_zero, Nat.sub_zero]
  · rw [← drop_append_of_le_length (Nat.sub_le _ _), drop_drop]
    congr 1
    omega

/-- **Eviction** keeps the newest ids and forgets the results of the others. -/
theorem evict_spec (order : List Uuid) (results : Table Uuid JobCommandResult) :
    (evict order results).1 = order.drop (order.length - cacheCapacity) ∧
      ∀ id, (evict order results).2.get id =
        if id ∈ order.take (order.length - cacheCapacity) then none else results.get id := by
  induction order generalizing results with
  | nil => exact ⟨rfl, fun id => rfl⟩
  | cons oldest rest ih =>
    unfold evict
    rw [length_cons]
    split
    · obtain ⟨horder, hresults⟩ := ih (results.remove oldest)
      have hcount : rest.length + 1 - cacheCapacity = rest.length - cacheCapacity + 1 := by omega
      rw [hcount, drop_succ_cons, take_succ_cons]
      refine ⟨horder, fun id => ?_⟩
      rw [hresults id, get_remove]
      by_cases hid : id = oldest
      · rw [if_pos hid, ite_self, if_pos (mem_cons.mpr (.inl hid))]
      · rw [if_neg hid]
        exact if_congr (by rw [mem_cons, or_iff_right hid]) rfl rfl
    · rename_i hfew
      rw [Nat.sub_eq_zero_of_le (Nat.le_of_not_lt hfew)]
      exact ⟨rfl, fun id => (if_neg not_mem_nil).symm⟩

/-- The controller keeps the newest answers, one for each id. -/
structure Remembers (state : ControllerState) (answers : List (Uuid × JobCommandResult)) :
    Prop where
  order : state.cacheOrder = (recent answers).map Prod.fst
  distinct : ((recent answers).map Prod.fst).Nodup
  results : ∀ id result, state.cachedResults.get id = some result ↔ (id, result) ∈ recent answers

/-- What is left of a list behind some of its entries, when no two have the same key. -/
theorem mem_drop_iff {l : List (Uuid × JobCommandResult)} (h : (l.map Prod.fst).Nodup) (n : Nat)
    {e : Uuid × JobCommandResult} : e ∈ l.drop n ↔ e ∈ l ∧ e.1 ∉ (l.map Prod.fst).take n := by
  rw [← take_append_drop n l, map_append, nodup_append] at h
  constructor
  · intro he
    refine ⟨mem_of_mem_drop he, fun hkey => ?_⟩
    rw [← map_take] at hkey
    exact h.2.2 _ hkey _ (mem_map_of_mem he) rfl
  · rintro ⟨he, hkey⟩
    rw [← take_append_drop n l, mem_append] at he
    rw [← map_take] at hkey
    exact he.resolve_left fun hin => hkey (mem_map_of_mem hin)

namespace Remembers

variable {state state' : ControllerState} {answers : List (Uuid × JobCommandResult)}

theorem new : Remembers .new [] where
  order := rfl
  distinct := nodup_nil
  results := fun _ _ => ⟨nofun, nofun⟩

theorem of_sameCache (h : Remembers state answers) (hcache : SameCache state state') :
    Remembers state' answers :=
  ⟨hcache.2.trans h.order, h.distinct, fun id result => hcache.1 ▸ h.results id result⟩

theorem known_iff (h : Remembers state answers) (id : Uuid) :
    state.cachedResults.get id = none ↔ id ∉ (recent answers).map Prod.fst := by
  rw [Option.eq_none_iff_forall_ne_some, mem_map, not_exists]
  constructor
  · rintro hnone ⟨id', result⟩ ⟨hmem, rfl⟩
    exact hnone result ((h.results _ _).mpr hmem)
  · exact fun hno result hsome => hno (id, result) ⟨(h.results _ _).mp hsome, rfl⟩

/-- **One more answer**, to a command whose answer is not remembered. -/
theorem cacheResult (h : Remembers state answers) {id : Uuid}
    (hnew : state.cachedResults.get id = none) (result : JobCommandResult) :
    Remembers (cacheResult state id result) (answers ++ [(id, result)]) := by
  have hfresh := (h.known_iff id).mp hnew
  have horder : state.cacheOrder ++ [id] = (recent answers ++ [(id, result)]).map Prod.fst := by
    rw [h.order, map_append]
    rfl
  have hdistinct : ((recent answers ++ [(id, result)]).map Prod.fst).Nodup := by
    rw [map_append]
    exact List.Nodup.append h.distinct (nodup_singleton id)
      (disjoint_singleton.mpr hfresh)
  have hlength : (state.cacheOrder ++ [id]).length = (recent answers).length + 1 := by
    rw [horder, length_map, length_append, length_singleton]
  obtain ⟨hkept, hgot⟩ := evict_spec (state.cacheOrder ++ [id])
    (state.cachedResults.insert id result)
  rw [hlength, horder] at hkept hgot
  have hrecent := recent_append answers (id, result)
  refine ⟨?_, ?_, fun id' result' => ?_⟩
  · rw [hrecent, map_drop, ← hkept, ← horder]
    rfl
  · rw [hrecent, map_drop]
    exact hdistinct.sublist (drop_sublist _ _)
  · have hget : (Remote.cacheResult state id result).cachedResults.get id' = _ :=
      (congrArg (fun order => (evict order _).2.get id') horder).trans (hgot id')
    rw [hrecent, mem_drop_iff hdistinct, hget, get_insert]
    split
    · rename_i hout
      exact ⟨nofun, fun h => absurd hout h.2⟩
    · rename_i hin
      rw [mem_append, mem_singleton, Prod.mk.injEq, ← h.results, and_iff_left hin]
      split
      · rename_i hid
        rw [hid, hnew]
        simp [eq_comm]
      · rename_i hid
        simp [hid]

end Remembers

/-! ## 2. Runs -/

section Runs

variable (env : Env)

/-- The answers given so far, without those given from memory and those that may change. -/
def answersAfter (s : Agent) (answers : List (Uuid × JobCommandResult)) :
    Act → List (Uuid × JobCommandResult)
  | .command factory command script =>
    let result :=
      (perform env (applyCommand factory s.policy s.controller command) script s.scheduler).1.1
    match parseUuid command.commandId "command_id" with
    | .ok id =>
      if id ∉ (recent answers).map Prod.fst ∧ shouldCacheResult result = true then
        answers ++ [(id, result)]
      else answers
    | .error _ => answers
  | _ => answers

/-- The Agent and the answers it has given. -/
def followAnswers (w : Agent × List (Uuid × JobCommandResult)) (act : Act) :
    Agent × List (Uuid × JobCommandResult) :=
  (w.1.step env act, answersAfter env w.1 w.2 act)

theorem Remembers.step {w : Agent × List (Uuid × JobCommandResult)}
    (h : Remembers w.1.controller w.2) (act : Act) :
    Remembers (followAnswers env w act).1.controller (followAnswers env w act).2 := by
  obtain ⟨s, answers⟩ := w
  have hlocal : act.IsLocal → answersAfter env s answers act = answers →
      Remembers (s.step env act).controller (answersAfter env s answers act) :=
    fun hact hafter => hafter.symm ▸ h.of_sameCache (hact.untouched env s).1
  cases act with
  | internal | resumePlugin | rehash | updatePolicy | pausePlugin => exact hlocal trivial rfl
  | clearRemoteJobs script =>
    exact h.of_sameCache ((deleteAll_ends s.controller.remoteJobs.entries s.controller).exec
      (serve env) (internalTurn env) script s.scheduler).1
  | command factory command script =>
    have hends := commanded env factory s command script
    dsimp only [followAnswers, Agent.step, answersAfter]
    generalize (perform env (applyCommand factory s.policy s.controller command) script
      s.scheduler).1 = r at hends ⊢
    have hnote : ∀ {state' : ControllerState} {id : Uuid} {result : JobCommandResult},
        SameCache s.controller state' → s.controller.cachedResults.get id = none →
        Remembers (noteResult state' id result)
          (if id ∉ (recent answers).map Prod.fst ∧ shouldCacheResult result = true then
            answers ++ [(id, result)] else answers) := by
      intro state' id result hcache hnew
      have h' := h.of_sameCache hcache
      rw [← hcache.1] at hnew
      unfold noteResult
      by_cases hkeep : shouldCacheResult result = true
      · rw [if_pos hkeep, if_pos ⟨(h'.known_iff id).mp hnew, hkeep⟩]
        exact h'.cacheResult hnew result
      · rw [if_neg hkeep, if_neg fun hboth => hkeep hboth.2]
        exact h'
    cases hends with
    | invalid hid =>
      rw [hid]
      exact h
    | repeated hid hold =>
      rw [hid]
      dsimp only
      rw [if_neg fun hboth => by
        rw [← h.known_iff, hold] at hboth
        cases hboth.1]
      exact h
    | refused hid hnew =>
      rw [hid]
      exact hnote ⟨rfl, rfl⟩ hnew
    | applied hid hnew haction hcache =>
      rw [hid]
      exact hnote hcache hnew

/-- **A command that is sent again**, while its answer is among the last 1024 remembered, gets that
    answer, and neither the controller nor the scheduler changes. The controller never remembers more
    answers than that, and it has an answer for each id in its queue, which has none twice. -/
theorem command_idempotent (policy : RemoteJobPolicy) (scheduler : SchedulerActor)
    (acts : List Act) :
    let w := run (followAnswers env) (.fresh policy scheduler, []) acts
    (∀ factory command script id result, parseUuid command.commandId "command_id" = .ok id →
      (id, result) ∈ recent w.2 →
        perform env (applyCommand factory w.1.policy w.1.controller command) script w.1.scheduler =
          ((result, w.1.controller), w.1.scheduler)) ∧
      w.1.controller.cachedResults.len ≤ cacheCapacity ∧
      (∀ id, w.1.controller.cachedResults.contains id = true ↔ id ∈ w.1.controller.cacheOrder) ∧
      w.1.controller.cacheOrder.Nodup := by
  intro w
  have hstep : ∀ (w : Agent × List (Uuid × JobCommandResult)) (act : Act),
      Remembers w.1.controller w.2 → True → Remembers (followAnswers env w act).1.controller
        (followAnswers env w act).2 := fun _ act h _ => h.step env act
  have h : Remembers w.1.controller w.2 :=
    run_invariant hstep acts _ Remembers.new (along_trivial acts _)
  have hkeys : ∀ id, w.1.controller.cachedResults.contains id = true ↔
      id ∈ w.1.controller.cacheOrder := fun id => by
    rw [← not_iff_not, Bool.not_eq_true, contains_eq_false_iff, h.known_iff, h.order]
  refine ⟨fun factory command script id result hid hmem => ?_, ?_, hkeys, h.order ▸ h.distinct⟩
  · unfold applyCommand
    rw [hid]
    dsimp only
    rw [(h.results id result).mpr hmem]
    rfl
  · have hperm : w.1.controller.cachedResults.keys.Perm w.1.controller.cacheOrder :=
      (perm_ext_iff_of_nodup w.1.controller.cachedResults.nodup
        (h.order ▸ h.distinct)).mpr fun id =>
          (mem_keys_iff.trans contains_iff.symm).trans (hkeys id)
    have hlength := hperm.length_eq
    rw [h.order, length_map, recent, length_drop] at hlength
    have hlen : w.1.controller.cachedResults.len = w.1.controller.cachedResults.keys.length :=
      (length_map _).symm
    omega

/-- The command that brought the second Job comes again, with another content: it gets the answer to
    the first one, and nothing else happens. -/
theorem command_idempotent_two_polling :
    let once := run (Agent.step .still) freshAgent [upsertNow 1 (pollingAs 1 1)]
    let first : JobCommand := ⟨Uuid.asBytes 2, some (.upsert ⟨2, some (pollingAs 2 1)⟩)⟩
    let again : JobCommand := ⟨Uuid.asBytes 2, some (.upsert ⟨3, some (pollingAs 1 2)⟩)⟩
    perform .still (applyCommand .lenient twoPolling.policy twoPolling.controller again) []
        twoPolling.scheduler =
      (((perform .still (applyCommand .lenient once.policy once.controller first) []
        once.scheduler).1.1, twoPolling.controller), twoPolling.scheduler) := by
  intro once first again
  exact (command_idempotent .still {} (start .still { globalConcurrency := 4 })
    [upsertNow 1 (pollingAs 1 1), upsertNow 2 (pollingAs 2 1)]).1 .lenient again [] 2 _
    (by decide +kernel) (by decide +kernel)

end Runs

end Smalux.Remote
