/-
  Subject:   Programs that call a server, and what happens between their calls.

  A client program is a tree: it is done, or it asks the server something and goes on with the
  answer. The server has a life of its own. What it does between two calls is a script, one list of
  messages before each call; `exec` runs a program under a script.

  * `wp` -- what must hold before a program so that each of its calls finds what it must and a
    postcondition holds after it, whatever the server does in between (`R`), as long as each call
    finds a state it can work with (`ok`);
  * `Guarded` -- a script that keeps to the rules; `exec_of_wp`, `calls_of_wp` -- what the program
    and its calls then do.
-/
import Smalux.Lib.Run

namespace Lib

open List

/-- A program that asks questions of type `Q` and gets answers of type `A`. -/
inductive Client (Q A α : Type) where
  | done (value : α)
  | ask (request : Q) (resume : A → Client Q A α)

namespace Client

variable {Q A α β : Type}

def bind : Client Q A α → (α → Client Q A β) → Client Q A β
  | .done value, f => f value
  | .ask request resume, f => .ask request fun answer => (resume answer).bind f

instance : Monad (Client Q A) where
  pure := .done
  bind := .bind

theorem bind_assoc {γ : Type} (p : Client Q A α) (f : α → Client Q A β) (g : β → Client Q A γ) :
    p >>= f >>= g = p >>= fun value => f value >>= g := by
  induction p with
  | done => rfl
  | ask request resume ih => exact congrArg (Client.ask request) (funext ih)

/-- Whatever the answers, the program ends with a value that satisfies `P`. -/
def Ends (P : α → Prop) : Client Q A α → Prop
  | .done value => P value
  | .ask _ resume => ∀ answer, Ends P (resume answer)

theorem Ends.mono {P P' : α → Prop} : ∀ {p : Client Q A α}, Ends P p → (∀ value, P value → P' value) →
    Ends P' p
  | .done value, h, himp => himp value h
  | .ask _ _, h, himp => fun answer => (h answer).mono himp

theorem Ends.of_forall {P : α → Prop} (h : ∀ value, P value) : ∀ (p : Client Q A α), Ends P p
  | .done value => h value
  | .ask _ resume => fun answer => of_forall h (resume answer)

theorem ends_bind {P : β → Prop} {f : α → Client Q A β} : ∀ {p : Client Q A α},
    Ends (fun value => Ends P (f value)) p → Ends P (p >>= f)
  | .done _, h => h
  | .ask _ _, h => fun answer => ends_bind (h answer)

section Semantics

variable {S M : Type} (serve : S → Q → A × S) (step : S → M → S) {script : List (List M)}

/-- The result and the last state of a program run under a script. -/
def exec : Client Q A α → List (List M) → S → α × S
  | .done value, _, s => (value, s)
  | .ask request resume, script, s =>
    let r := serve (run step s (script.headD [])) request
    exec (resume r.1) script.tail r.2

/-- The states in which its requests are served. -/
def calls : Client Q A α → List (List M) → S → List (S × Q)
  | .done _, _, _ => []
  | .ask request resume, script, s =>
    let found := run step s (script.headD [])
    (found, request) :: calls (resume (serve found request).1) script.tail (serve found request).2

/-- What is left when a program is cut off after `k` calls: its value if it had come to its end. -/
def cut : Client Q A α → Nat → S → Option α × S
  | .done value, _, s => (some value, s)
  | .ask _ _, 0, s => (none, s)
  | .ask request resume, k + 1, s => cut (resume (serve s request).1) k (serve s request).2

theorem Ends.exec {P : α → Prop} {p : Client Q A α} (h : Ends P p) (script : List (List M)) (s : S) :
    P (exec serve step p script s).1 := by
  induction p generalizing script s with
  | done => exact h
  | ask request resume ih => exact ih _ (h _) _ _

theorem exec_bind (p : Client Q A α) (f : α → Client Q A β) (script : List (List M)) (s : S) :
    exec serve step (p >>= f) script s = exec serve step (f (exec serve step p script s).1)
        (script.drop (calls serve step p script s).length) (exec serve step p script s).2 := by
  induction p generalizing script s with
  | done => rfl
  | ask request resume ih =>
    show exec serve step (resume _ >>= f) script.tail _ = _
    rw [ih, drop_tail]
    rfl

theorem calls_bind (p : Client Q A α) (f : α → Client Q A β) (script : List (List M)) (s : S) :
    calls serve step (p >>= f) script s = calls serve step p script s ++
        calls serve step (f (exec serve step p script s).1)
          (script.drop (calls serve step p script s).length) (exec serve step p script s).2 := by
  induction p generalizing script s with
  | done => rfl
  | ask request resume ih =>
    show _ :: calls serve step (resume _ >>= f) script.tail _ = _
    rw [ih, drop_tail]
    rfl

/-- Before each call the server handles only messages it may handle there (`quiet`), and the call
    finds a state it can work with (`ok`). -/
def Guarded (quiet : S → M → Prop) (ok : S → Q → Prop) :
    Client Q A α → List (List M) → S → Prop
  | .done _, _, _ => True
  | .ask request resume, script, s =>
    let found := run step s (script.headD [])
    Along step quiet s (script.headD []) ∧ ok found request ∧
      Guarded quiet ok (resume (serve found request).1) script.tail (serve found request).2

instance Guarded.decidable (quiet : S → M → Prop) (ok : S → Q → Prop)
    [∀ s m, Decidable (quiet s m)] [∀ s q, Decidable (ok s q)] :
    ∀ (p : Client Q A α) (script : List (List M)) (s : S),
      Decidable (Guarded serve step quiet ok p script s)
  | .done _, _, _ => .isTrue trivial
  | .ask request resume, script, s =>
    have := Guarded.decidable quiet ok
      (resume (serve (run step s (script.headD [])) request).1) script.tail
      (serve (run step s (script.headD [])) request).2
    inferInstanceAs (Decidable (_ ∧ _ ∧ _))

/-- If any message is quiet, only the calls count. -/
theorem guarded_of_calls {ok : S → Q → Prop} {p : Client Q A α} {s : S}
    (h : ∀ call ∈ calls serve step p script s, ok call.1 call.2) :
    Guarded serve step (fun _ _ => True) ok p script s := by
  induction p generalizing script s with
  | done => exact trivial
  | ask request resume ih =>
    refine ⟨along_trivial _ s, h _ mem_cons_self, ?_⟩
    exact ih _ fun call hcall => h call (mem_cons_of_mem _ hcall)

variable (R : S → S → Prop) (ok must : S → Q → Prop)

/-- **The weakest precondition** of a postcondition on result and state: whatever the server does
    before a call (within `R`), if the call finds a state it can work with, that state meets `must`
    and the rest of the program does its part. -/
def wp : Client Q A α → (α → S → Prop) → S → Prop
  | .done value, post, s => post value s
  | .ask request resume, post, s =>
    ∀ found, R s found → ok found request →
      must found request ∧ wp (resume (serve found request).1) post (serve found request).2

theorem wp_bind : ∀ (p : Client Q A α) (f : α → Client Q A β) (post : β → S → Prop) (s : S),
    wp serve R ok must (p >>= f) post s ↔
      wp serve R ok must p (fun value s => wp serve R ok must (f value) post s) s
  | .done _, _, _, _ => Iff.rfl
  | .ask request resume, f, post, s => by
    refine forall_congr' fun found => forall_congr' fun _ => forall_congr' fun _ => ?_
    exact and_congr_right fun _ => wp_bind (resume _) f post _

variable {serve step R ok must}

theorem wp_mono {post post' : α → S → Prop} (h : ∀ value s, post value s → post' value s) :
    ∀ {p : Client Q A α} {s : S}, wp serve R ok must p post s → wp serve R ok must p post' s
  | .done value, s, hp => h value s hp
  | .ask _ _, _, hp => fun found hR hok =>
    ⟨(hp found hR hok).1, wp_mono h (hp found hR hok).2⟩

section Rules

variable {quiet : S → M → Prop} {post : α → S → Prop} {p : Client Q A α}
  (hquiet : ∀ s messages, Along step quiet s messages → R s (run step s messages))
include hquiet

/-- **A program ends as promised** under every script that keeps to the rules. -/
theorem exec_of_wp {s : S} (hp : wp serve R ok must p post s)
    (hg : Guarded serve step quiet ok p script s) :
    post (exec serve step p script s).1 (exec serve step p script s).2 := by
  induction p generalizing script s with
  | done => exact hp
  | ask request resume ih =>
    obtain ⟨hmessages, hok, hrest⟩ := hg
    exact ih _ (hp _ (hquiet s _ hmessages) hok).2 hrest

/-- **Each of its calls finds what was promised.** -/
theorem calls_of_wp {s : S} (hp : wp serve R ok must p post s)
    (hg : Guarded serve step quiet ok p script s) :
    ∀ call ∈ calls serve step p script s, must call.1 call.2 := by
  induction p generalizing script s with
  | done => exact fun call hcall => absurd hcall not_mem_nil
  | ask request resume ih =>
    obtain ⟨hmessages, hok, hrest⟩ := hg
    obtain ⟨hmust, hresume⟩ := hp _ (hquiet s _ hmessages) hok
    intro call hcall
    rcases mem_cons.mp hcall with rfl | hcall
    · exact hmust
    · exact ih _ hresume hrest call hcall

end Rules

end Semantics

end Client

end Lib
