import ReactiveRules.Script.Attend

/-!
# `Proofs/Script/Cancellation.lean` — cancelling stops a script

Whoever evaluates a script reads the cancel flag at each call of a command and once more when the script
has failed. The flag may be set by a command, beforehand, or by somebody else at any moment. **Once it is
set no command is called; a call that is refused is the last thing the script does; and what fails then
has been cancelled, unless its text could not be read** (`Evaluator.cancellation_stops`).

There are two parts to it. `Process.Unfolds` says how a process can go, whoever sets the flag, and that a
call is not made once the flag is set is in its rules. That nothing comes after a refusal is up to the
script: each of its trees `Heeds` a refusal, because an operand that fails is the end of its operator.
-/

set_option autoImplicit false

namespace ReactiveRules

namespace Script

/-! ## Heeding a refusal -/

namespace Process

variable {α β ε : Type}

/-- Whenever a call is refused, the process ends at once with the given result. -/
def Heeds (x : α) : Process α → Prop
  | .done _ => True
  | .panicked _ => True
  | .log _ next => next.Heeds x
  | .invoke _ _ next => next .cancelled = .done x ∧ ∀ r, (next r).Heeds x

theorem Heeds.bind {p : Process α} {x : α} {y : β} {f : α → Process β} (hp : p.Heeds x)
    (hx : f x = .done y) (hf : ∀ a, (f a).Heeds y) : (p.bind f).Heeds y := by
  induction p with
  | done a => exact hf a
  | panicked m => exact trivial
  | log m next ih => exact ih hp
  | invoke c args next ih =>
    refine ⟨?_, fun r => ih r (hp.2 r)⟩
    show (next .cancelled).bind f = .done y
    rw [hp.1]
    exact hx

/-- What fails because of a refusal is not gone on with. -/
theorem Heeds.andThen {e : ε} {p : Process (Except ε α)} {f : α → Process (Except ε β)}
    (hp : p.Heeds (.error e)) (hf : ∀ a, (f a).Heeds (.error e)) :
    (p.andThen f).Heeds (.error e) := by
  refine hp.bind rfl fun r => ?_
  cases r with
  | error e' => exact trivial
  | ok a => exact hf a

/-- Does the process ask its surroundings for something? -/
def asks : Process α → Bool
  | .done _ => false
  | .panicked _ => false
  | _ => true

/-- Who asks nothing is refused nothing. -/
theorem heeds_of_not_asks {x : α} {p : Process α} (h : p.asks = false) : p.Heeds x := by
  cases p with
  | done a => exact trivial
  | panicked m => exact trivial
  | log m next => cases h
  | invoke f args next => cases h

end Process

/-- What a script hears of a call that is refused. -/
def refusal : Fault := .custom "cancelled"

namespace Builtin

theorem asks_shift (direction : String) (f : Int64 → Int64 → Int64) (v : Value) :
    (shift direction f v).asks = false := by
  unfold shift
  split
  · rfl
  · split <;> rfl

theorem asks_absolute (v : Value) : (absolute v).asks = false := by
  unfold absolute
  split
  · rfl
  · split <;> rfl
  · rfl

theorem asks_substring (v : Value) : (substring v).asks = false := by
  unfold substring
  split
  · rfl
  · unfold slice
    split
    · rfl
    · split <;> rfl

end Builtin

/-- The functions every script has ask nothing. -/
theorem asks_builtin {f : String} {g : Builtin} (h : builtin? f = some g) (v : Value) :
    (g v).asks = false := by
  unfold builtin? at h
  split at h <;> cases h
  all_goals first
    | rfl
    | exact Builtin.asks_absolute v
    | exact Builtin.asks_shift _ _ v
    | exact Builtin.asks_substring v

namespace Scope

theorem heeds_call (s : Scope) (f : String) (v : Value) : (s.call f v).Heeds (.error refusal) := by
  unfold call
  split
  · exact ⟨rfl, fun _ => trivial⟩
  · split
    · exact trivial
    · split
      · exact trivial
      · split
        · next g hg => exact Process.heeds_of_not_asks (asks_builtin hg v)
        · exact trivial

theorem heeds_apply (s : Scope) (o : Operator) (vs : List Value) (vars : Variables) :
    (s.apply o vs vars).Heeds (.error refusal) := by
  unfold apply
  split
  · split
    · exact trivial
    · exact (s.heeds_call _ _).andThen fun _ => trivial
  · exact trivial

-- the induction is on the tree, with all operands of a node at once
mutual

theorem heeds_eval (s : Scope) : ∀ (t : Tree) (vars : Variables),
    (s.eval t vars).Heeds (.error refusal)
  | .node o ts, vars => by
    rw [eval]
    exact (s.heeds_evalAll ts vars).andThen fun (vs, vars) => s.heeds_apply o vs vars

theorem heeds_evalAll (s : Scope) : ∀ (ts : List Tree) (vars : Variables),
    (s.evalAll ts vars).Heeds (.error refusal)
  | [], vars => by
    rw [evalAll]
    exact trivial
  | t :: ts, vars => by
    rw [evalAll]
    exact (s.heeds_eval t vars).andThen fun (v, vars) =>
      (s.heeds_evalAll ts vars).andThen fun _ => trivial

end

theorem heeds_run (s : Scope) (t : Tree) (vars : Variables) :
    (s.run t vars).Heeds (.error refusal) :=
  (s.heeds_eval t vars).andThen fun _ => trivial

end Scope

/-! ## How a process can go -/

/-- Something that happens while a script is evaluated. -/
inductive Incident where
  | wrote (line : String)
  /-- A command is called; when it has answered the flag is set, or not. -/
  | called (command : String) (arguments : List Json) (cancels : Bool)
  /-- A call is not made because the flag is set. -/
  | refused (command : String) (arguments : List Json)
  /-- Somebody else sets the flag. -/
  | cancelled

namespace Incident

def cancels : Incident → Bool
  | .called _ _ cancels => cancels
  | .cancelled => true
  | _ => false

/-- What it is to those who see only what a script does. -/
def effect? : Incident → Option Effect
  | .wrote line => some (.wrote line)
  | .called command args _ => some (.called command args)
  | _ => none

end Incident

/-- The flag after some incidents. -/
def flagAfter (flag : Bool) (is : List Incident) : Bool := flag || is.any (·.cancels)

@[simp] theorem flagAfter_nil (flag : Bool) : flagAfter flag [] = flag := Bool.or_false flag

@[simp] theorem flagAfter_cons (flag : Bool) (i : Incident) (is : List Incident) :
    flagAfter flag (i :: is) = flagAfter (flag || i.cancels) is := by
  unfold flagAfter
  rw [List.any_cons, Bool.or_assoc]

namespace Process

variable {α : Type}

/-- The incidents and the end of a process, from a state of the flag on. Commands answer what they like
and may break the process off. -/
inductive Unfolds : Process α → Bool → List Incident → Except String α → Prop
  | done (a : α) (flag : Bool) : Unfolds (.done a) flag [] (.ok a)
  | panicked (m : String) (flag : Bool) : Unfolds (.panicked m) flag [] (.error m)
  | cancelled {p : Process α} {flag : Bool} {is : List Incident} {r : Except String α}
      (h : Unfolds p true is r) : Unfolds p flag (.cancelled :: is) r
  | wrote {line : String} {next : Process α} {flag : Bool} {is : List Incident}
      {r : Except String α} (h : Unfolds next flag is r) :
      Unfolds (.log line next) flag (.wrote line :: is) r
  | refused {f : String} {args : List Json} {next : Reply → Process α} {is : List Incident}
      {r : Except String α} (h : Unfolds (next .cancelled) true is r) :
      Unfolds (.invoke f args next) true (.refused f args :: is) r
  | called {f : String} {args : List Json} {next : Reply → Process α} {cancels : Bool}
      {reply : Except String Json} {is : List Incident} {r : Except String α}
      (h : Unfolds (next (.ofAnswer reply)) cancels is r) :
      Unfolds (.invoke f args next) false (.called f args cancels :: is) r
  | broke {f : String} {args : List Json} {next : Reply → Process α} (cancels : Bool)
      (m : String) : Unfolds (.invoke f args next) false [.called f args cancels] (.error m)

variable {p : Process α} {flag : Bool} {i : Incident} {is before after : List Incident}
  {r : Except String α}

theorem Unfolds.of_done {a : α} (h : (Process.done a).Unfolds flag is r) :
    (∀ i ∈ is, i = .cancelled) ∧ r = .ok a := by
  induction is generalizing flag with
  | nil =>
    cases h
    exact ⟨fun _ hi => (by cases hi), rfl⟩
  | cons i rest ih =>
    cases h with
    | cancelled h => exact ⟨List.forall_mem_cons.mpr ⟨rfl, (ih h).1⟩, (ih h).2⟩

theorem Unfolds.of_called {f : String} {args : List Json} {cancels : Bool}
    (h : p.Unfolds flag (.called f args cancels :: is) r) : flag = false := by
  cases h <;> rfl

/-- A process that heeds a refusal does nothing more. -/
theorem Unfolds.of_refused {x : α} (hp : p.Heeds x) {f : String} {args : List Json}
    (h : p.Unfolds flag (.refused f args :: is) r) :
    flag = true ∧ (∀ i ∈ is, i = .cancelled) ∧ r = .ok x := by
  cases h with
  | refused h =>
    rw [hp.1] at h
    exact ⟨rfl, h.of_done⟩

/-- After its first incident a process goes on as a process, unless nothing follows. -/
theorem Unfolds.step {x : α} (hp : p.Heeds x) (h : p.Unfolds flag (i :: is) r) :
    is = [] ∨ ∃ p' : Process α, p'.Heeds x ∧ p'.Unfolds (flag || i.cancels) is r := by
  cases h with
  | cancelled h =>
    refine .inr ⟨p, hp, ?_⟩
    show p.Unfolds (flag || true) is r
    rw [Bool.or_true]
    exact h
  | @wrote line next _ _ _ h =>
    refine .inr ⟨next, hp, ?_⟩
    show next.Unfolds (flag || false) is r
    rw [Bool.or_false]
    exact h
  | refused h => exact .inr ⟨_, hp.2 _, h⟩
  | called h => exact .inr ⟨_, hp.2 _, h⟩
  | broke cancels m => exact .inl rfl

/-- What happens at any time happens to a process that the flag has been told to. -/
theorem Unfolds.rest {x : α} (hp : p.Heeds x) (h : p.Unfolds flag (before ++ i :: after) r) :
    ∃ p' : Process α, p'.Heeds x ∧ p'.Unfolds (flagAfter flag before) (i :: after) r := by
  induction before generalizing p flag with
  | nil => exact ⟨p, hp, by rwa [flagAfter_nil]⟩
  | cons b before ih =>
    rcases h.step hp with hnil | ⟨p', hp', h'⟩
    · cases before <;> cases hnil
    · rw [flagAfter_cons]
      exact ih hp' h'

/-- What a process does among given surroundings is one of the ways it can go. -/
theorem unfolds_attend {σ : Type} (respond : σ → String → List Json → σ × Response)
    (p : Process α) (flag : Bool) (s : σ) : ∃ is, p.Unfolds flag is (p.attend respond flag s).result ∧
      (p.attend respond flag s).cancelled = flagAfter flag is ∧
      (p.attend respond flag s).effects = is.filterMap (·.effect?) := by
  induction p generalizing flag s with
  | done a => exact ⟨[], .done a flag, (flagAfter_nil flag).symm, rfl⟩
  | panicked m => exact ⟨[], .panicked m flag, (flagAfter_nil flag).symm, rfl⟩
  | log line next ih =>
    obtain ⟨is, h, hflag, heffects⟩ := ih flag s
    refine ⟨.wrote line :: is, .wrote h, ?_, congrArg (Effect.wrote line :: ·) heffects⟩
    rw [flagAfter_cons, show (Incident.wrote line).cancels = false from rfl, Bool.or_false]
    exact hflag
  | invoke f args next ih =>
    cases flag with
    | true =>
      obtain ⟨is, h, hflag, heffects⟩ := ih .cancelled true s
      rw [attend, if_pos rfl]
      exact ⟨.refused f args :: is, .refused h, hflag, heffects⟩
    | false =>
      rw [attend, if_neg Bool.false_ne_true]
      cases hr : respond s f args with
      | mk s' response =>
        cases response with
        | answer cancels reply =>
          obtain ⟨is, h, hflag, heffects⟩ := ih (.ofAnswer reply) cancels s'
          refine ⟨.called f args cancels :: is, .called h, ?_,
            congrArg (Effect.called f args :: ·) heffects⟩
          rw [flagAfter_cons]
          exact hflag
        | panic m => exact ⟨[.called f args false], .broke false m, rfl, rfl⟩

end Process

end Script

open Script

namespace Evaluator

variable {e : Evaluator} {p : Purpose} {text : String} {c : Context} {flag : Bool}

/-! ## How an evaluation can go -/

/-- The incidents of an evaluation, and what it ends with before that is judged. A text that is not
evaluated at all leaves only others to set the flag. -/
inductive Goes (e : Evaluator) (p : Purpose) (text : String) (c : Context) (flag : Bool) :
    List Incident → Except String (Except ScriptError (Except Fault Value)) → Prop
  | unread {err : ScriptError} {is : List Incident} (h : (e.start p text c flag).2 = .error err)
      (his : ∀ i ∈ is, i = .cancelled) : Goes e p text c flag is (.ok (.error err))
  | read {process : Process (Except Fault Value)} {is : List Incident}
      {r : Except String (Except Fault Value)} (h : (e.start p text c flag).2 = .ok process)
      (hr : process.Unfolds flag is r) : Goes e p text c flag is (r.map .ok)

theorem compile_error {err : ScriptError} (h : (e.compile text).2 = .error err) :
    ∃ fault, Tree.ofText text = .error fault ∧ err = .compile text fault := by
  unfold compile at h
  split at h
  · cases h
  · split at h
    · cases h
    · next fault hfault =>
      cases h
      exact ⟨fault, hfault, rfl⟩

/-- How an evaluation can begin. -/
theorem start_cases (e : Evaluator) (p : Purpose) (text : String) (c : Context) (flag : Bool) :
    (e.start p text c flag).2 = .error .cancelled ∨
    (∃ fault, Tree.ofText text = .error fault ∧
      (e.start p text c flag).2 = .error (.compile text fault)) ∨
    ∃ tree, (e.start p text c flag).2 = .ok (c.process p tree) := by
  unfold start
  split
  · exact .inl rfl
  · cases htree : (e.compile text).2 with
    | error err =>
      obtain ⟨fault, hfault, rfl⟩ := compile_error htree
      exact .inr (.inl ⟨fault, hfault, congrArg (Except.map (c.process p)) htree⟩)
    | ok tree => exact .inr (.inr ⟨tree, congrArg (Except.map (c.process p)) htree⟩)

theorem start_error {err : ScriptError} (h : (e.start p text c flag).2 = .error err) :
    err = .cancelled ∨ ∃ fault, Tree.ofText text = .error fault ∧ err = .compile text fault := by
  rcases e.start_cases p text c flag with hs | ⟨fault, hfault, hs⟩ | ⟨tree, hs⟩ <;> rw [hs] at h <;>
    cases h
  · exact .inl rfl
  · exact .inr ⟨fault, hfault, rfl⟩

theorem start_ok {process : Process (Except Fault Value)}
    (h : (e.start p text c flag).2 = .ok process) : process.Heeds (.error refusal) := by
  rcases e.start_cases p text c flag with hs | ⟨fault, hfault, hs⟩ | ⟨tree, hs⟩ <;> rw [hs] at h <;>
    cases h
  exact Scope.heeds_run _ _ _

/-- What an evaluation does among given surroundings is one of the ways it can go. -/
theorem goes_attend {σ : Type} (e : Evaluator)
    (respond : σ → String → List Json → σ × Response) (p : Purpose) (text : String) (c : Context)
    (flag : Bool) (s : σ) : ∃ is,
      e.Goes p text c flag is (e.attend respond p text c flag s).2.result ∧
      (e.attend respond p text c flag s).2.cancelled = flagAfter flag is ∧
      (e.attend respond p text c flag s).2.effects = is.filterMap (·.effect?) := by
  cases hstart : (e.start p text c flag).2 with
  | error err =>
    refine ⟨[], ?_⟩
    unfold attend
    simp only [hstart]
    exact ⟨.unread hstart fun _ hi => (by cases hi), (flagAfter_nil flag).symm, rfl⟩
  | ok process =>
    obtain ⟨is, h, hflag, heffects⟩ := process.unfolds_attend respond flag s
    refine ⟨is, ?_⟩
    unfold attend
    simp only [hstart]
    exact ⟨.read hstart h, hflag, heffects⟩

/-- What comes of an evaluation that heeds the flag: no call is made once it is set, nothing follows a
refusal, and a failure with the flag set is taken for a cancellation. -/
structure Stops {β : Type} (text : String) (flag : Bool) (is : List Incident)
    (r : Except String (Except ScriptError β)) : Prop where
  call : ∀ before f args cancels after, is = before ++ .called f args cancels :: after →
    flagAfter flag before = false
  refusal : ∀ before f args after, is = before ++ .refused f args :: after →
    flagAfter flag before = true ∧ (∀ i ∈ after, i = .cancelled) ∧ r = .ok (.error .cancelled)
  failure : flagAfter flag is = true → ∀ err, r = .ok (.error err) →
    err = .cancelled ∨ ∃ fault, Tree.ofText text = .error fault ∧ err = .compile text fault

variable {β : Type} {is : List Incident} {r : Except String (Except ScriptError (Except Fault Value))}
  {judged : Bool → Except Fault Value → Except ScriptError β}

/-- A cancelled script is judged by the flag, whatever the judgement makes of its values. -/
theorem Goes.stops (h : e.Goes p text c flag is r)
    (hfault : ∀ fault, judged true (.error fault) = .error .cancelled)
    (hvalue : ∀ v err, judged true v = .error err → err = .cancelled) :
    Stops text flag is (r.map (·.bind (judged (flagAfter flag is)))) := by
  cases h with
  | @unread err is h his =>
    have hnone : ∀ before i after, is = before ++ i :: after → i = .cancelled := by
      rintro before i after rfl
      exact his i (List.mem_append_right _ List.mem_cons_self)
    refine ⟨fun before f args cancels after h => ?_, fun before f args after h => ?_,
      fun _ err' hr => ?_⟩
    · cases hnone _ _ _ h
    · cases hnone _ _ _ h
    · cases hr
      exact start_error h
  | @read process is r h hr =>
    have hheeds := start_ok h
    refine ⟨?_, ?_, fun hflag err hres => ?_⟩
    · rintro before f args cancels after rfl
      obtain ⟨p', -, h'⟩ := hr.rest hheeds
      exact h'.of_called
    · rintro before f args after rfl
      obtain ⟨p', hp', h'⟩ := hr.rest hheeds
      obtain ⟨hset, hafter, rfl⟩ := h'.of_refused hp'
      have hflag : flagAfter flag (before ++ .refused f args :: after) = true := by
        unfold flagAfter at hset ⊢
        rw [List.any_append, ← Bool.or_assoc, hset, Bool.true_or]
      refine ⟨hset, hafter, congrArg Except.ok ?_⟩
      rw [hflag]
      exact hfault refusal
    · rw [hflag] at hres
      cases r with
      | error m => cases hres
      | ok v =>
        exact .inl (hvalue v err (Except.ok.inj hres))

/-! ## The two judgements -/

theorem mapError_ofFault {x : Except Fault β} {err : ScriptError}
    (h : x.mapError (.ofFault text true) = .error err) : err = .cancelled := by
  cases x with
  | error fault => exact (Except.error.inj h).symm
  | ok v => cases h

theorem Goes.stops_condition (h : e.Goes .condition text c flag is r) :
    Stops text flag is (r.map (·.bind (conditionTruth text (flagAfter flag is)))) :=
  h.stops (fun _ => rfl) fun _ _ => mapError_ofFault

theorem Goes.stops_action (h : e.Goes .action text c flag is r) :
    Stops text flag is (r.map (·.bind (actionResult text (flagAfter flag is)))) :=
  h.stops (fun _ => rfl) fun _ _ => mapError_ofFault

theorem map_attend {σ : Type} (e : Evaluator) (respond : σ → String → List Json → σ × Response)
    (p : Purpose) (text : String) (c : Context) (flag : Bool) (s : σ)
    (judged : Bool → Except Fault Value → Except ScriptError β) :
    let course := (e.attend respond p text c flag s).2.map fun flag r => r.bind (judged flag)
    ∃ is r, e.Goes p text c flag is r ∧
      course.result = r.map (·.bind (judged (flagAfter flag is))) ∧
      course.cancelled = flagAfter flag is ∧ course.effects = is.filterMap (·.effect?) := by
  obtain ⟨is, h, hflag, heffects⟩ := e.goes_attend respond p text c flag s
  exact ⟨is, _, h, by rw [← hflag]; rfl, hflag, heffects⟩

/-- **Cancelling stops a script.** However a condition or an action goes, with commands that answer what
they like and others that may set the flag at any moment: no command is called once the flag is set, a
call that is refused is the last thing that happens and the evaluation ends as cancelled, and if it fails
with the flag set it fails as cancelled, or its text could not be read. What `judge` and `act` do is one
of these ways. With the flag set beforehand a condition calls no command, and an action ends as cancelled
at once and does nothing. -/
theorem cancellation_stops (e : Evaluator) (text : String) (c : Context) (flag : Bool) :
    (∀ is r, e.Goes .condition text c flag is r →
      Stops text flag is (r.map (·.bind (conditionTruth text (flagAfter flag is))))) ∧
    (∀ is r, e.Goes .action text c flag is r →
      Stops text flag is (r.map (·.bind (actionResult text (flagAfter flag is))))) ∧
    (∀ (σ : Type) (respond : σ → String → List Json → σ × Response) (s : σ),
      let course := (e.judge respond text c flag s).2
      ∃ is r, e.Goes .condition text c flag is r ∧
        course.result = r.map (·.bind (conditionTruth text (flagAfter flag is))) ∧
        course.cancelled = flagAfter flag is ∧ course.effects = is.filterMap (·.effect?)) ∧
    (∀ (σ : Type) (respond : σ → String → List Json → σ × Response) (s : σ),
      let course := (e.act respond text c flag s).2
      ∃ is r, e.Goes .action text c flag is r ∧
        course.result = r.map (·.bind (actionResult text (flagAfter flag is))) ∧
        course.cancelled = flagAfter flag is ∧ course.effects = is.filterMap (·.effect?)) ∧
    (∀ is r, e.Goes .condition text c true is r → ∀ f args cancels, .called f args cancels ∉ is) ∧
    (∀ is r, e.Goes .action text c true is r →
      (∀ i ∈ is, i = .cancelled) ∧ r = .ok (.error .cancelled)) ∧
    (∀ (σ : Type) (respond : σ → String → List Json → σ × Response) (s : σ),
      (∀ f args, .called f args ∉ (e.judge respond text c true s).2.effects) ∧
      e.act respond text c true s = (e, ⟨.ok (.error .cancelled), true, s, []⟩)) := by
  have hquiet : ∀ is r, e.Goes .condition text c true is r →
      ∀ f args cancels, .called f args cancels ∉ is := by
    intro is r h f args cancels hmem
    obtain ⟨before, after, his⟩ := List.append_of_mem hmem
    have hset := h.stops_condition.call before f args cancels after his
    rw [flagAfter, Bool.true_or] at hset
    cases hset
  refine ⟨fun _ _ h => h.stops_condition, fun _ _ h => h.stops_action,
    fun _ respond s => e.map_attend respond .condition text c flag s (conditionTruth text),
    fun _ respond s => e.map_attend respond .action text c flag s (actionResult text), hquiet,
    fun is r h => ?_, fun _ respond s => ⟨fun f args hmem => ?_, rfl⟩⟩
  · cases h with
    | unread h his =>
      cases h
      exact ⟨his, rfl⟩
    | read h hr => cases h
  · obtain ⟨is, r, h, -, -, heffects⟩ :=
      e.map_attend respond .condition text c true s (conditionTruth text)
    have hmem : Effect.called f args ∈ is.filterMap (·.effect?) := heffects ▸ hmem
    obtain ⟨i, hi, heffect⟩ := List.mem_filterMap.mp hmem
    cases i with
    | called f' args' cancels => exact hquiet is r h _ _ _ hi
    | wrote line => cases heffect
    | refused f' args' => cases heffect
    | cancelled => cases heffect

/-- Of two commands of which the first cancels, the second is not called. -/
example :
    let call (f : String) : Tree := .node (.call f) [.node (.constant .empty) []]
    let process := Context.process ⟨default, [], ["stop", "go"]⟩ .action
      (.node .chain [call "stop", call "go"])
    let course := process.attend
      (fun (_ : Unit) f _ => ((), .answer (f == "stop") (.ok .null))) false ()
    course.effects = [.called "stop" []] ∧
      course.result = .ok (.error (.custom "cancelled")) := ⟨rfl, rfl⟩

end Evaluator

end ReactiveRules
