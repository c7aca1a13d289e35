import Mathlib.Data.List.Dedup
import Mathlib.Data.List.Induction
import ReactiveRules.Script.Attend

/-!
# `Proofs/Script/Afresh.lean` — an evaluator that has been used is as good as a new one

An evaluator keeps the trees of the texts it has read. What it keeps is right, since every tree it keeps
is that of its text (`Evaluator.Sound`), and it keeps nothing else: no variable and no value outlives the
evaluation it belongs to. **So each call on one evaluator, after any others, answers and does what it
would on an evaluator of its own** (`Evaluator.Session.calls_as_afresh`), and the evaluator keeps the
texts that could be read since it was cleared, each once.

Only the beginning of an evaluation looks at the evaluator (`Evaluator.Sound.start`). What has begun is a
process of its own, so it does not matter either whether other evaluations are still under way.
-/

set_option autoImplicit false

namespace ReactiveRules

open Script

namespace Evaluator

variable {e : Evaluator} {text : String} {p : Purpose} {c : Context} {cancelled : Bool}

/-! ## What is kept -/

/-- The texts whose trees are kept. -/
def texts (e : Evaluator) : List String := e.trees.map (·.1)

/-- Each tree that is kept is that of its text, and no text is kept twice. -/
structure Sound (e : Evaluator) : Prop where
  reads : ∀ entry ∈ e.trees, Tree.ofText entry.1 = .ok entry.2
  distinct : e.texts.Nodup

theorem sound_clear (e : Evaluator) : e.clear.Sound where
  reads := fun _ h => by cases h
  distinct := List.nodup_nil

/-- The tree of a text, or why it cannot be read. -/
def read (text : String) : Except ScriptError Tree :=
  (Tree.ofText text).mapError (.compile text)

/-- Can the text be read? -/
def readable (text : String) : Bool := (Tree.ofText text).isOk

/-- What reading a text on an evaluator can come to. -/
inductive Compiles (e : Evaluator) (text : String) : Evaluator × Except ScriptError Tree → Prop
  | kept (tree : Tree) (h : (text, tree) ∈ e.trees) : Compiles e text (e, .ok tree)
  | new (tree : Tree) (hnew : text ∉ e.texts) (h : Tree.ofText text = .ok tree) :
      Compiles e text (⟨(text, tree) :: e.trees⟩, .ok tree)
  | refused (fault : Fault) (hnew : text ∉ e.texts) (h : Tree.ofText text = .error fault) :
      Compiles e text (e, .error (.compile text fault))

theorem compiles (e : Evaluator) (text : String) : e.Compiles text (e.compile text) := by
  unfold compile
  cases hfind : e.trees.find? (·.1 == text) with
  | some entry =>
    obtain rfl : entry.1 = text := by simpa using List.find?_some hfind
    exact .kept entry.2 (List.mem_of_find?_eq_some hfind)
  | none =>
    have hnew : text ∉ e.texts := by
      intro h
      obtain ⟨entry, hentry, rfl⟩ := List.mem_map.mp h
      exact List.find?_eq_none.mp hfind entry hentry (beq_self_eq_true _)
    cases htree : Tree.ofText text with
    | ok tree => exact .new tree hnew htree
    | error fault => exact .refused fault hnew htree

/-- A sound evaluator reads a text as if it had kept nothing. -/
theorem Sound.compile (h : e.Sound) (text : String) : (e.compile text).2 = read text := by
  unfold read
  generalize hr : e.compile text = r
  cases hr ▸ e.compiles text with
  | kept tree hmem =>
    rw [h.reads _ hmem]
    rfl
  | new tree hnew htree =>
    rw [htree]
    rfl
  | refused fault hnew hfault =>
    rw [hfault]
    rfl

theorem Sound.sound_compile (h : e.Sound) (text : String) : (e.compile text).1.Sound := by
  generalize hr : e.compile text = r
  cases hr ▸ e.compiles text with
  | kept tree hmem => exact h
  | new tree hnew htree =>
    exact ⟨List.forall_mem_cons.mpr ⟨htree, h.reads⟩, List.nodup_cons.mpr ⟨hnew, h.distinct⟩⟩
  | refused fault hnew hfault => exact h

/-- After it has been read a text is kept, if it could be read; the others are kept as before. -/
theorem texts_compile (e : Evaluator) (text other : String) :
    other ∈ (e.compile text).1.texts ↔
      other ∈ e.texts ∨ other = text ∧ readable text = true := by
  unfold readable
  generalize hr : e.compile text = r
  cases hr ▸ e.compiles text with
  | kept tree hmem =>
    have hkept : text ∈ e.texts := List.mem_map.mpr ⟨_, hmem, rfl⟩
    exact ⟨.inl, fun ho => ho.elim id fun ⟨ho, _⟩ => ho ▸ hkept⟩
  | new tree hnew htree =>
    rw [htree]
    show other ∈ text :: e.texts ↔ _
    rw [List.mem_cons, or_comm]
    exact or_congr_right ⟨fun ho => ⟨ho, rfl⟩, And.left⟩
  | refused fault hnew hfault =>
    rw [hfault]
    exact ⟨.inl, fun ho => ho.elim id fun ⟨_, ho⟩ => by cases ho⟩

/-! ## Beginning an evaluation -/

/-- Does an evaluation look at its text at all? -/
def looks (p : Purpose) (cancelled : Bool) : Bool := !(p == .action && cancelled)

/-- A sound evaluator begins every evaluation with the variables of its context, whatever it was used
for before. -/
theorem Sound.start (h : e.Sound) (p : Purpose) (text : String) (c : Context) (cancelled : Bool) :
    (e.start p text c cancelled).2 =
      if looks p cancelled then
        (read text).map fun tree => (c.scope p).run tree c.initialVariables
      else .error .cancelled := by
  unfold Evaluator.start looks
  cases p == .action && cancelled with
  | true => rfl
  | false => exact congrArg (Except.map (c.process p)) (h.compile text)

theorem Sound.sound_start (h : e.Sound) (p : Purpose) (text : String) (c : Context)
    (cancelled : Bool) : (e.start p text c cancelled).1.Sound := by
  unfold Evaluator.start
  split
  · exact h
  · exact h.sound_compile text

theorem texts_start (e : Evaluator) (p : Purpose) (text : String) (c : Context)
    (cancelled : Bool) (other : String) : other ∈ (e.start p text c cancelled).1.texts ↔
      other ∈ e.texts ∨ other = text ∧ looks p cancelled = true ∧ readable text = true := by
  unfold Evaluator.start looks
  cases p == .action && cancelled with
  | true =>
    show other ∈ e.texts ↔ _
    simp
  | false =>
    show other ∈ (e.compile text).1.texts ↔ _
    rw [texts_compile]
    simp

/-- An evaluation depends on the evaluator by its beginning alone, and the evaluator on it. -/
theorem Sound.attend {σ : Type} (h : e.Sound) (respond : σ → String → List Json → σ × Response)
    (p : Purpose) (text : String) (c : Context) (cancelled : Bool) (s : σ) :
    (e.attend respond p text c cancelled s).2
        = (({} : Evaluator).attend respond p text c cancelled s).2 ∧
      (e.attend respond p text c cancelled s).1 = (e.start p text c cancelled).1 := by
  have hstart : (e.start p text c cancelled).2 = (({} : Evaluator).start p text c cancelled).2 :=
    (h.start p text c cancelled).trans ((sound_clear e).start p text c cancelled).symm
  unfold Evaluator.attend
  dsimp only
  rw [← hstart]
  split
  · exact ⟨rfl, rfl⟩
  · exact ⟨rfl, rfl⟩

theorem Sound.judge {σ : Type} (h : e.Sound) (respond : σ → String → List Json → σ × Response)
    (text : String) (c : Context) (cancelled : Bool) (s : σ) :
    (e.judge respond text c cancelled s).2
        = (({} : Evaluator).judge respond text c cancelled s).2 ∧
      (e.judge respond text c cancelled s).1 = (e.start .condition text c cancelled).1 := by
  obtain ⟨hcourse, hkept⟩ := h.attend respond .condition text c cancelled s
  refine ⟨?_, hkept⟩
  exact congrArg (Course.map fun flag (r : Except ScriptError (Except Fault Value)) =>
    r.bind (conditionTruth text flag)) hcourse

theorem Sound.act {σ : Type} (h : e.Sound) (respond : σ → String → List Json → σ × Response)
    (text : String) (c : Context) (cancelled : Bool) (s : σ) :
    (e.act respond text c cancelled s).2
        = (({} : Evaluator).act respond text c cancelled s).2 ∧
      (e.act respond text c cancelled s).1 = (e.start .action text c cancelled).1 := by
  obtain ⟨hcourse, hkept⟩ := h.attend respond .action text c cancelled s
  refine ⟨?_, hkept⟩
  exact congrArg (Course.map fun flag (r : Except ScriptError (Except Fault Value)) =>
    r.bind (actionResult text flag)) hcourse

/-! ## Calls -/

variable {σ : Type}

/-- A call of an evaluator. A condition and an action come with what answers their commands, with their
context and the cancel flag. -/
inductive Call (σ : Type) where
  | judge (respond : σ → String → List Json → σ × Response) (text : String) (c : Context)
      (cancelled : Bool)
  | act (respond : σ → String → List Json → σ × Response) (text : String) (c : Context)
      (cancelled : Bool)
  | clear

/-- What a call answers, and what was done on the way. -/
inductive Answer (σ : Type) where
  | judged (course : Course σ (Except ScriptError Bool))
  | acted (course : Course σ (Except ScriptError Json))
  | cleared

namespace Call

/-- Makes the call among surroundings in a state: what it leaves of the evaluator and the surroundings,
and the answer. -/
def make (e : Evaluator) (s : σ) : Call σ → Evaluator × σ × Answer σ
  | .judge respond text c cancelled =>
    let (e, course) := e.judge respond text c cancelled s
    (e, course.state, .judged course)
  | .act respond text c cancelled =>
    let (e, course) := e.act respond text c cancelled s
    (e, course.state, .acted course)
  | .clear => (e.clear, s, .cleared)

def isClear : Call σ → Bool
  | .clear => true
  | _ => false

/-- The text that the call reads; nothing if it looks at none or the text cannot be read. -/
def reads? : Call σ → Option String
  | .judge _ text _ _ => if readable text then some text else none
  | .act _ text _ cancelled => if !cancelled && readable text then some text else none
  | .clear => none

/-- The texts that were read since the evaluator was last cleared, latest first. -/
def textsRead (calls : List (Call σ)) : List String :=
  (calls.reverse.takeWhile fun x => !x.isClear).filterMap reads?

/-- The answer of a call does not depend on what a sound evaluator was used for. -/
theorem answer_make (h : e.Sound) (s : σ) (x : Call σ) : (x.make e s).2 = (x.make {} s).2 := by
  cases x with
  | judge respond text c cancelled =>
    exact congrArg (fun course => (course.state, Answer.judged course))
      (h.judge respond text c cancelled s).1
  | act respond text c cancelled =>
    exact congrArg (fun course => (course.state, Answer.acted course))
      (h.act respond text c cancelled s).1
  | clear => rfl

theorem sound_make (h : e.Sound) (s : σ) (x : Call σ) : (x.make e s).1.Sound := by
  cases x with
  | judge respond text c cancelled =>
    show (e.judge respond text c cancelled s).1.Sound
    rw [(h.judge respond text c cancelled s).2]
    exact h.sound_start .condition text c cancelled
  | act respond text c cancelled =>
    show (e.act respond text c cancelled s).1.Sound
    rw [(h.act respond text c cancelled s).2]
    exact h.sound_start .action text c cancelled
  | clear => exact e.sound_clear

/-- A call adds the text that it reads to those that are kept, or has all of them forgotten. -/
theorem texts_make (h : e.Sound) (s : σ) (x : Call σ) (text : String) :
    text ∈ (x.make e s).1.texts ↔
      x.isClear = false ∧ text ∈ e.texts ∨ x.reads? = some text := by
  cases x with
  | judge respond text' c cancelled =>
    show text ∈ (e.judge respond text' c cancelled s).1.texts ↔ _
    rw [(h.judge respond text' c cancelled s).2, texts_start]
    simp [reads?, isClear, looks, and_comm, eq_comm (a := text)]
  | act respond text' c cancelled =>
    show text ∈ (e.act respond text' c cancelled s).1.texts ↔ _
    rw [(h.act respond text' c cancelled s).2, texts_start]
    simp [reads?, isClear, looks, and_comm, eq_comm (a := text)]
  | clear =>
    show text ∈ [] ↔ _
    simp [reads?, isClear]

theorem mem_textsRead_snoc (calls : List (Call σ)) (x : Call σ) (text : String) :
    text ∈ textsRead (calls ++ [x]) ↔
      x.isClear = false ∧ text ∈ textsRead calls ∨ x.reads? = some text := by
  unfold textsRead
  rw [List.reverse_append, List.reverse_singleton, List.singleton_append, List.takeWhile_cons]
  cases x <;> simp [isClear, reads?, or_comm]

end Call

/-! ## Sessions -/

/-- An evaluator among surroundings, and what it has answered so far. -/
structure Session (σ : Type) where
  evaluator : Evaluator := {}
  state : σ
  answers : List (Answer σ) := []

namespace Session

def call (S : Session σ) (x : Call σ) : Session σ :=
  let (evaluator, state, answer) := x.make S.evaluator S.state
  { evaluator, state, answers := S.answers ++ [answer] }

/-- A call of an evaluator that has never been used. -/
def callAfresh (S : Session σ) (x : Call σ) : Session σ := { S with evaluator := {} }.call x

def after (S : Session σ) (calls : List (Call σ)) : Session σ := calls.foldl call S

def afterAfresh (S : Session σ) (calls : List (Call σ)) : Session σ := calls.foldl callAfresh S

/-- A session, and one in which each call has an evaluator of its own. -/
structure Faithful (S S' : Session σ) (calls : List (Call σ)) : Prop where
  sound : S.evaluator.Sound
  kept : ∀ text, text ∈ S.evaluator.texts ↔ text ∈ Call.textsRead calls
  state : S.state = S'.state
  answers : S.answers = S'.answers

theorem faithful_new (s : σ) : Faithful ⟨{}, s, []⟩ ⟨{}, s, []⟩ [] where
  sound := sound_clear {}
  kept := fun _ => Iff.rfl
  state := rfl
  answers := rfl

theorem Faithful.call {S S' : Session σ} {calls : List (Call σ)} (h : S.Faithful S' calls)
    (x : Call σ) : (S.call x).Faithful (S'.callAfresh x) (calls ++ [x]) := by
  have hanswer : (x.make S.evaluator S.state).2 = (x.make {} S'.state).2 :=
    h.state ▸ Call.answer_make h.sound S.state x
  refine ⟨Call.sound_make h.sound S.state x, fun text => ?_, congrArg Prod.fst hanswer,
    congrArg₂ (· ++ [·]) h.answers (congrArg Prod.snd hanswer)⟩
  rw [Call.mem_textsRead_snoc, ← h.kept]
  exact Call.texts_make h.sound S.state x text

theorem faithful_after (s : σ) (calls : List (Call σ)) :
    Faithful (after ⟨{}, s, []⟩ calls) (afterAfresh ⟨{}, s, []⟩ calls) calls := by
  induction calls using List.reverseRecOn with
  | nil => exact faithful_new s
  | append_singleton calls x ih =>
    unfold after afterAfresh
    rw [List.foldl_append, List.foldl_append]
    exact ih.call x

/-- **A used evaluator is as good as a new one.** In any session, each call answers what it would answer
on an evaluator that has never been used, calls the same commands, writes the same lines and leaves its
surroundings in the same state. After any session an evaluation begins with the variables of its own
context, so nothing that a script assigned is left. What is kept are the texts that could be read since
the evaluator was last cleared, each once. -/
theorem calls_as_afresh (s : σ) (calls : List (Call σ)) :
    let S := after ⟨{}, s, []⟩ calls
    let S' := afterAfresh ⟨{}, s, []⟩ calls
    S.answers = S'.answers ∧ S.state = S'.state ∧
    (∀ p text c cancelled, (S.evaluator.start p text c cancelled).2 =
      if p = .action ∧ cancelled = true then .error .cancelled
      else ((Tree.ofText text).mapError (.compile text)).map fun tree =>
        (c.scope p).run tree c.initialVariables) ∧
    (∀ text, text ∈ S.evaluator.texts ↔ text ∈ Call.textsRead calls) ∧
    S.evaluator.size = (Call.textsRead calls).dedup.length ∧
    ∀ text ∈ S.evaluator.texts, ∃ tree, Tree.ofText text = .ok tree := by
  intro S S'
  have h : S.Faithful S' calls := faithful_after s calls
  refine ⟨h.answers, h.state, fun p text c cancelled => ?_, h.kept, ?_, fun text htext => ?_⟩
  · rw [h.sound.start]
    cases p <;> cases cancelled <;> rfl
  · have hperm : S.evaluator.texts.Perm (Call.textsRead calls).dedup :=
      (List.perm_ext_iff_of_nodup h.sound.distinct (List.nodup_dedup _)).mpr fun text => by
        rw [List.mem_dedup, h.kept]
    rw [← hperm.length_eq]
    exact (List.length_map _).symm
  · obtain ⟨entry, hentry, rfl⟩ := List.mem_map.mp htext
    exact ⟨entry.2, h.sound.reads entry hentry⟩

end Session

end Evaluator

end ReactiveRules
