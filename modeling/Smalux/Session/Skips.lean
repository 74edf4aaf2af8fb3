/-
  Subject:   A catalog that is not sent.

  An evaluation leaves the catalog out if it equals the one remembered, or if the Agent's summary
  names it. Neither the memory nor the summary is looked after: a catalog the Agent has rejected is
  still remembered; a summary is still held when other catalogs have been sent since; and a catalog
  remembered because of a summary stays remembered when the Agent sends another summary.

  * `SkipSound` -- what it should mean that a catalog is left out;
  * **`skips_sound`** -- it does in every run in which these three do not meet.
-/
import Smalux.Session.Monitors

namespace Smalux.Session

open Lib Server Proto

variable {policy : AgentJobPolicySnapshot} {inventory : AgentPluginInventory}
  {catalog : ReplaceAllJobs}

/-! ## 1. What a skip should mean -/

/-- The catalog sent last has been reported as rejected. -/
def lastRejected : List Entry → Bool
  | [] => false
  | .replaceAll _ _ _ :: _ => false
  | .received (.commandResult result) :: past =>
    (result.status = statusRejected &&
      (lastReplaceAll past).any fun sent => sent.1 = result.commandId) || lastRejected past
  | _ :: past => lastRejected past

/-- The catalog left out. -/
def Entry.skipped : Entry → Option ReplaceAllJobs
  | .skippedCatalog catalog => some catalog
  | _ => none

/-- The Agent has the catalog: it is the one sent last, and not rejected; or nothing was sent, and the
    Agent's last summary names it. -/
def SkipSound (env : SessionEnv) (e : Entry) (past : List Entry) : Prop :=
  ∀ catalog ∈ e.skipped,
    (∀ sent ∈ lastReplaceAll past, sent.2 = catalog ∧ lastRejected past = false) ∧
      (lastReplaceAll past = none → (lastSummary past).any (namesCatalog env catalog) = true)
  deriving Decidable

/-! ## 2. The condition -/

/-- The revision of the Agent's catalog in the database. -/
def storedRevision (env : SessionEnv) (d : Desk) : Option Nat :=
  d.world.jobs.tables.catalogs.get env.agentId

def Event.summary? : Event → Option AgentReconcileSummary
  | .summary received => some received
  | _ => none

/-- An evaluation without force finds no catalog at the revision of one that the Agent has rejected
    last, and, unless it is for a new policy, none at the revision of a summary that is older than a
    catalog sent. A summary that comes while nothing has been sent names the catalog remembered. -/
def Unconfused (env : SessionEnv) (d : Desk) : Act → Prop
  | .outside _ => True
  | .event event _ =>
    (event.evaluates = true → d.session.forceReconcile = false →
      ∀ sent ∈ lastReplaceAll d.record,
        (lastRejected d.record = true → storedRevision env d ≠ some sent.2.catalogRevision) ∧
        (event.isPolicy = false → ∀ summary ∈ d.session.reconcileSummary,
          storedRevision env d ≠ some summary.catalogRevision)) ∧
    (lastReplaceAll d.record = none → ∀ summary ∈ event.summary?,
      ∀ catalog ∈ d.session.lastSentCatalog, namesCatalog env catalog summary = true)

instance Unconfused.decidable (env : SessionEnv) (d : Desk) :
    ∀ act, Decidable (Unconfused env d act)
  | .outside _ => .isTrue trivial
  | .event _ _ => inferInstanceAs (Decidable (_ ∧ _))

/-! ## 3. What the session remembers -/

/-- The catalog remembered is the one sent last, or one that the Agent's last summary names. -/
structure Remembers (env : SessionEnv) (d : Desk) : Prop where
  linked : Linked d
  sent : ∀ commandId catalog, lastReplaceAll d.record = some (commandId, catalog) →
    d.session.lastSentCatalog = some catalog
  named : lastReplaceAll d.record = none → ∀ catalog, d.session.lastSentCatalog = some catalog →
    (lastSummary d.record).any (namesCatalog env catalog) = true
  skips : Always (SkipSound env) d.record

/-- What is known of the condition until the catalog is evaluated. -/
structure Undecided (env : SessionEnv) (event : Event) (d : Desk) : Prop where
  remembers : Remembers env d
  rejected : event.evaluates = true → d.session.forceReconcile = false →
    ∀ sent ∈ lastReplaceAll d.record, lastRejected d.record = true →
      storedRevision env d ≠ some sent.2.catalogRevision
  stale : event.evaluates = true → d.session.forceReconcile = false → event.isPolicy = false →
    lastReplaceAll d.record ≠ none → ∀ summary ∈ d.session.reconcileSummary,
      storedRevision env d ≠ some summary.catalogRevision

section Rule

variable {env : SessionEnv} {d d' : Desk} {event : Event}
  {capability : AgentCapabilitySnapshot} {turn : Turn}

theorem Calm.lastRejected (h : Calm d d') : lastRejected d'.record = lastRejected d.record := by
  refine h.look fun e _ he => ?_
  cases e with
  | sent => rfl
  | received event => cases event <;> first | rfl | cases he
  | _ => cases he

theorem SkipSound.quiet (e : Entry) (past : List Entry) (h : e.quiet = true) :
    SkipSound env e past := by
  have hnone : e.skipped = none := by cases e <;> first | rfl | cases h
  intro catalog hcatalog
  rw [hnone] at hcatalog
  cases hcatalog

theorem Remembers.calm (hcalm : Calm d d') (h : Remembers env d) : Remembers env d' := by
  obtain ⟨revision, hsession⟩ := hcalm.session
  refine ⟨h.linked.calm hcalm, ?_, ?_, hcalm.always .quiet h.skips⟩
  · rw [hcalm.lastReplaceAll, hsession]
    exact h.sent
  · rw [hcalm.lastReplaceAll, hcalm.lastSummary, hsession]
    exact h.named

theorem Undecided.calm (hcalm : Calm d d') (h : Undecided env event d) :
    Undecided env event d' := by
  obtain ⟨revision, hsession⟩ := hcalm.session
  have hstored : storedRevision env d' = storedRevision env d := by
    unfold storedRevision
    rw [hcalm.world]
  refine ⟨h.remembers.calm hcalm, ?_, ?_⟩
  · rw [hcalm.lastReplaceAll, hsession, hstored, hcalm.lastRejected]
    exact h.rejected
  · rw [hcalm.lastReplaceAll, hsession, hstored]
    exact h.stale

/-- **What becomes of a catalog**: what is left out, the Agent has. -/
theorem Undecided.deliver (h : Undecided env event d) {force : Bool} {out : Desk × Bool}
    (hforce : force = false → Unforced event d.session)
    (hrevision : storedRevision env d = some catalog.catalogRevision) (hlinked : Linked out.1)
    (hdelivered : Delivered env turn
      ((d.log (.loadCatalog policy capability inventory)).log (.computedCatalog catalog)) force
      catalog out) : Remembers env out.1 := by
  have hr := h.remembers
  cases hdelivered with
  | already hunforced hsent =>
    have hu := hforce hunforced
    refine ⟨hlinked, hr.sent, hr.named, ?_, nofun, nofun, hr.skips⟩
    intro skipped hskipped
    cases (hskipped : some catalog = some skipped)
    refine ⟨?_, fun hnone => hr.named hnone catalog hsent⟩
    rintro ⟨commandId, sent⟩ hlast
    have hsame : sent = catalog :=
      Option.some.inj ((hr.sent commandId sent hlast).symm.trans hsent)
    refine ⟨hsame, Bool.eq_false_iff.mpr fun hrejected => ?_⟩
    exact h.rejected hu.evaluates hu.force (commandId, sent) hlast hrejected (hsame ▸ hrevision)
  | named hunforced summary hheld hnames =>
    have hu := hforce hunforced
    have hsummary := hr.linked.summary summary hheld
    -- nothing has been sent yet: the summary is not out of date
    have hnone : lastReplaceAll d.record = none := by
      by_contra hsome
      have hother : event.isPolicy = false := by
        refine Bool.eq_false_iff.mpr fun hpolicy => ?_
        exact nomatch (hu.policy hpolicy).symm.trans hheld
      refine h.stale hu.evaluates hu.force hother hsome summary hheld ?_
      rw [hrevision]
      exact congrArg some (of_decide_eq_true (Bool.and_eq_true_iff.mp hnames).1).symm
    have hnamed : (lastSummary d.record).any (namesCatalog env catalog) = true := by
      rw [hsummary]
      exact hnames
    refine ⟨hlinked, fun commandId sent hlast => ?_, fun _ c hc => ?_, ?_, nofun, nofun, hr.skips⟩
    · exact nomatch hnone.symm.trans hlast
    · cases hc
      exact hnamed
    · intro skipped hskipped
      cases (hskipped : some catalog = some skipped)
      exact ⟨fun sent hlast => (nomatch hnone.symm.trans hlast), fun _ => hnamed⟩
  | sent =>
    refine ⟨hlinked, fun commandId sent hlast => ?_, nofun, nofun, nofun, nofun, hr.skips⟩
    cases hlast
    rfl
  | refused => exact ⟨hlinked, hr.sent, hr.named, nofun, nofun, hr.skips⟩

theorem skipRule (hl : HandleRule env turn event Linked Linked) :
    HandleRule env turn event (Undecided env event) (Remembers env) where
  calm := Undecided.calm
  calmAfter := Remembers.calm
  done := fun h => h.remembers
  stop := fun ⟨hr, _, _⟩ => ⟨hl.stop hr.linked, hr.sent, hr.named, hr.skips⟩
  converged := fun hr => ⟨hl.converged hr.linked, hr.sent, hr.named, hr.skips⟩
  policy := fun policy hevent ⟨hr, hrejected, hstale⟩ =>
    ⟨⟨hl.policy policy hevent hr.linked, hr.sent, hr.named, nofun, hr.skips⟩, hrejected,
      fun hevent hforce hother hsome summary hheld =>
        hstale hevent hforce hother hsome summary (Linked.held_of_acceptPolicy hheld)⟩
  capability := fun capability hevent ⟨hr, hrejected, hstale⟩ =>
    ⟨⟨hl.capability capability hevent hr.linked, hr.sent, hr.named, nofun, hr.skips⟩, hrejected, hstale⟩
  inventory := fun inventory missing hevent hvalid ⟨hr, hrejected, hstale⟩ =>
    ⟨⟨hl.inventory inventory missing hevent hvalid hr.linked, hr.sent, hr.named, nofun, nofun,
      hr.skips⟩, hrejected, hstale⟩
  unchecked := fun inventory reason hevent hvalid hmissing ⟨hr, hrejected, hstale⟩ =>
    ⟨⟨hl.unchecked inventory reason hevent hvalid hmissing hr.linked, hr.sent, hr.named, nofun,
      hr.skips⟩, hrejected, hstale⟩
  unsaved := fun inventory ⟨hr, _, _⟩ =>
    ⟨hl.unsaved inventory hr.linked, hr.sent, hr.named, nofun, hr.skips⟩
  schema := fun response schemas pending hevent ⟨hr, hrejected, hstale⟩ =>
    ⟨⟨hl.schema response schemas pending hevent hr.linked, hr.sent, hr.named, hr.skips⟩, hrejected, hstale⟩
  reset := fun hevent ⟨hr, hrejected, hstale⟩ =>
    ⟨⟨hl.reset hevent hr.linked, hr.sent, hr.named, hr.skips⟩, hrejected, hstale⟩
  runtime := by
    rintro d d' inventory hevent hinventory hpending hloaded ⟨hr, hrejected, hstale⟩
    have hlinked := hl.runtime inventory hevent hinventory hpending hloaded hr.linked
    cases hloaded with
    | unavailable => exact ⟨⟨hlinked, hr.sent, hr.named, nofun, hr.skips⟩, hrejected, hstale⟩
    | named | sent =>
      exact ⟨⟨hlinked, hr.sent, hr.named, nofun, nofun, hr.skips⟩, hrejected, hstale⟩
  acknowledged := fun ack runtime hevent hruntime ⟨hr, hrejected, hstale⟩ =>
    ⟨⟨hl.acknowledged ack runtime hevent hruntime hr.linked, hr.sent, hr.named, nofun, hr.skips⟩,
      hrejected, hstale⟩
  panic := fun hready hruntime ⟨hr, _, _⟩ =>
    ⟨hl.panic hready hruntime hr.linked, hr.sent, hr.named, nofun, hr.skips⟩
  unavailable := fun policy capability inventory hrequest ⟨hr, _, _⟩ =>
    ⟨hl.unavailable policy capability inventory hrequest hr.linked, hr.sent, hr.named, nofun, hr.skips⟩
  deliver := by
    intro d out force policy capability inventory runtime catalog hrequest hruntime hforce hcomputed
      hdelivered h
    have hlinked := hl.deliver force policy capability inventory runtime catalog hrequest hruntime
      hforce hcomputed hdelivered h.remembers.linked
    -- the catalog computed has the revision stored
    have hrevision : storedRevision env d = some catalog.catalogRevision := by
      rw [sessionCatalog_eq] at hcomputed
      obtain ⟨revision, hrevision, rfl⟩ := Option.map_eq_some_iff.mp hcomputed
      exact hrevision
    exact h.deliver hforce hrevision hlinked hdelivered
  paused := fun notice pauses hevent ⟨hr, hrejected, hstale⟩ =>
    ⟨⟨hl.paused notice pauses hevent hr.linked, hr.sent, hr.named, hr.skips⟩, hrejected, hstale⟩
  resend := by
    rintro d notice catalog hevent hvalid hlast ⟨hr, _, _⟩
    have hlinked := hl.resend notice catalog hevent hvalid hlast hr.linked
    refine ⟨hlinked, fun commandId sent hsent => ?_, nofun, nofun, hr.skips⟩
    cases hsent
    rfl

/-- A message that is no summary. -/
theorem Remembers.received (h : Remembers env d) (hevent : ∀ summary, event ≠ .summary summary) :
    Remembers env (d.log (.received event)) := by
  refine ⟨h.linked.received hevent, h.sent, fun hnone catalog hcatalog => ?_, nofun, h.skips⟩
  have hnamed := h.named hnone catalog hcatalog
  cases event with
  | summary summary => exact absurd rfl (hevent summary)
  | _ => exact hnamed

theorem Undecided.received (h : Remembers env d) (hok : Unconfused env d (.event event turn))
    (hevent : ∀ summary, event ≠ .summary summary) :
    Undecided env event (d.log (.received event)) := by
  refine ⟨h.received hevent, ?_, ?_⟩
  · intro hevaluates hforce sent hsent hrejected
    refine (hok.1 hevaluates hforce sent hsent).1 ?_
    -- the result of a command evaluates nothing
    cases event with
    | commandResult => cases hevaluates
    | _ => exact hrejected
  · intro hevaluates hforce hother hsome summary hheld
    obtain ⟨sent, hsent⟩ := Option.ne_none_iff_exists'.mp hsome
    exact (hok.1 hevaluates hforce sent hsent).2 hother summary hheld

/-- A summary: the condition says that it names the catalog remembered. -/
theorem Remembers.onSummary (h : Remembers env d) {summary : AgentReconcileSummary}
    (hok : Unconfused env d (.event (.summary summary) turn)) :
    Remembers env ((d.log (.received (.summary summary))).onSummary env summary) := by
  have hlinked := h.linked.onSummary env summary
  have hnamed : lastReplaceAll d.record = none → ∀ catalog, d.session.lastSentCatalog = some catalog →
      namesCatalog env catalog summary = true := fun hnone catalog hcatalog =>
    hok.2 hnone summary rfl catalog hcatalog
  unfold Desk.onSummary at hlinked ⊢
  split at hlinked <;> exact ⟨hlinked, h.sent, hnamed, nofun, h.skips⟩

/-- **One iteration.** -/
theorem Remembers.step (h : Remembers env d) {act : Act} (hok : Unconfused env d act) :
    Remembers env (step env d act) := by
  cases act with
  | outside world =>
    exact ⟨h.linked.step env (.outside world), h.sent, h.named, h.skips⟩
  | event event turn =>
    show Remembers env (if d.running = true then d.handle env turn event else d)
    split
    · refine (skipRule (Linked.rule env turn event)).handle ?_ (.received h hok)
      rintro summary rfl
      exact h.onSummary hok
    · exact h

theorem Remembers.start (env : SessionEnv) (world : World) : Remembers env (.start world) :=
  ⟨Linked.start world, nofun, nofun, nofun, nofun, trivial⟩

end Rule

/-! ## 4. Skips -/

/-- **In every run that keeps to the condition, a catalog is left out only if the Agent has it.** -/
theorem skips_sound (env : SessionEnv) (world : World) (acts : List Act)
    (h : Along (step env) (Unconfused env) (.start world) acts) :
    Always (SkipSound env) (run (step env) (.start world) acts).record := by
  have hstep : ∀ d act, Remembers env d → Unconfused env d act → Remembers env (step env d act) :=
    fun _ _ hinv hok => hinv.step hok
  exact (run_invariant hstep acts (.start world) (Remembers.start env world) h).skips

/-- A signal without a change. -/
theorem unchanged_catalog_skipped :
    let acts := signOn ++ [plainly 5 .catalogChanged]
    (run (step echoAgent) (.start echoWorld) acts).record.head?.bind Entry.skipped =
        some ⟨1, [cpuJob 1 1, pluginJob 2 "plus.echo" "plus.echo.v1"]⟩ ∧
      Always (SkipSound echoAgent) (run (step echoAgent) (.start echoWorld) acts).record :=
  ⟨by decide +kernel, skips_sound echoAgent echoWorld _ (by decide +kernel)⟩

/-- **A catalog the Agent has rejected** is left out at the next signal. -/
theorem rejected_catalog_skipped :
    let acts := signOn ++
      [plainly 5 (.commandResult ⟨[4], statusRejected, 0⟩), plainly 6 .catalogChanged]
    let record := (run (step echoAgent) (.start echoWorld) acts).record
    record.head?.bind Entry.skipped =
        some ⟨1, [cpuJob 1 1, pluginJob 2 "plus.echo" "plus.echo.v1"]⟩ ∧
      lastRejected record = true ∧ ¬ Always (SkipSound echoAgent) record := by
  decide +kernel

end Smalux.Session
