import ReactiveRules.Proofs.Script.Afresh
import ReactiveRules.Proofs.Script.Growth

/-!
# `Proofs/Script/Arguments.lean` — what a command is called with

A call of a command is its name with a list of arguments in parentheses behind it. The arguments are evaluated
from left to right, and only then is the command called. It is handed one value that stands for all of them:
the empty value if there are none, the value itself if there is one, else the tuple of the values.

**So the command gets the values of its arguments in their order, as many as were written, unless the only one
is the empty value or a tuple** (`Evaluator.call_arguments`). Then it looks like no argument, or like many:
`f(null)` is called with nothing, and the items of an array are handed over one by one.
-/

set_option autoImplicit false

namespace ReactiveRules

/-- A course, and what goes on from its result. -/
def Course.bind {σ α β : Type} (c : Course σ α) (k : α → Bool → σ → Course σ β) : Course σ β :=
  match c.result with
  | .ok a => { k a c.cancelled c.state with effects := c.effects ++ (k a c.cancelled c.state).effects }
  | .error m => ⟨.error m, c.cancelled, c.state, c.effects⟩

namespace Script

variable {f : String} {tss : List (List Token)} {es : List Tree} {stack : Stack}

/-! ## Tokens and their neighbours -/

/-- Can the token stand right behind an argument? -/
def Token.endsArgument : Token → Bool
  | .comma | .closing => true
  | _ => false

/-- What stands before an operand makes no difference unless it is one itself. -/
theorem growAll_start {t : Token} (h : t.endsOperand = false) (ts : List Token) (stack : Stack) :
    growAll (some t) ts stack = growAll none ts stack := by
  cases ts with
  | nil => rfl
  | cons u rest =>
    have hop : u.operator (some t) rest.head? = u.operator none rest.head? := by
      cases u with
      | binary b => cases b <;> simp [Token.operator, h]
      | _ => rfl
    rw [growAll_cons, growAll_cons, hop]

/-- A token is taken for the same before the end of an argument as before the end of the script. -/
theorem operator_append (t : Token) (previous : Option Token) (rest : List Token)
    {more : List Token} (hmore : more.head?.any Token.endsArgument = true) :
    t.operator previous (rest ++ more).head? = t.operator previous rest.head? := by
  cases rest with
  | cons u rest => rfl
  | nil =>
    rcases more with - | ⟨d, more⟩
    · cases hmore
    · cases t with
      | name x => cases d <;> first | rfl | cases hmore
      | binary b => cases b <;> rfl
      | _ => rfl

theorem growAll_append {more : List Token} (hmore : more.head?.any Token.endsArgument = true) :
    ∀ (ts : List Token) (previous : Option Token) (stack : Stack),
    growAll previous (ts ++ more) stack = growAll previous ts stack >>= growAll none more := by
  intro ts
  induction ts with
  | nil =>
    intro previous stack
    rcases more with - | ⟨d, more⟩
    · cases hmore
    · show growAll previous (d :: more) stack = growAll none (d :: more) stack
      rw [growAll_cons, growAll_cons]
      cases d <;> first | rfl | cases hmore
  | cons t rest ih =>
    intro previous stack
    rw [List.cons_append, growAll_cons, growAll_cons, operator_append t previous rest hmore]
    cases growBy (t.operator previous rest.head?) t stack with
    | error e => rfl
    | ok next => exact ih (some t) next

/-! ## The list of arguments -/

/-- The arguments, with commas between them. -/
def argumentTokens : List (List Token) → List Token
  | [] => []
  | ts :: rest => ts ++ rest.flatMap (.comma :: ·)

def callTokens (f : String) (args : List (List Token)) : List Token :=
  .name f :: .opening :: argumentTokens args ++ [.closing]

/-- The list of arguments as one operand. -/
def argumentGroup : List Tree → Tree
  | [] => emptyGroup
  | [e] => .node .group [e]
  | e :: e' :: es =>
    .node .group [.node .tuple ((e :: e' :: es).map fun e => .node .group [e])]

/-- The call of a function. -/
def callTree (f : String) (es : List Tree) : Tree := .node (.call f) [argumentGroup es]

/-- The arguments so far, behind an open parenthesis. -/
def openArguments : List Tree → Stack → Stack
  | [], outer => emptyGroup :: outer
  | [e], outer => .node .group [e] :: outer
  | e :: e' :: es, outer =>
    .node .tuple ((e :: e' :: es).map fun e => .node .group [e]) :: emptyGroup :: outer

/-- The first argument grows in the parenthesis. -/
theorem fits_first (outer : Stack) : Fits (· :: outer) where
  ne_nil t := List.cons_ne_nil _ _
  grow {t node} ht hnode := by
    rw [grow_cons hnode, Tree.extend_group ht]
    cases t.insert node true <;> rfl

/-- A later argument grows as the last item of the tuple. -/
theorem fits_later (done : List Tree) (outer : Stack) :
    Fits fun t => .node .tuple (done ++ [t]) :: outer where
  ne_nil t := List.cons_ne_nil _ _
  grow {t node} ht hnode := by
    have hseq : (Tree.node .tuple (done ++ [t])).operator.isSequence = true := rfl
    rw [grow_cons hnode, Tree.extend, if_pos hseq]
    simp only [Tree.operands_node, List.getLast?_concat, List.dropLast_concat]
    cases t.insert node true <;> rfl

theorem head?_later {more : List Token} (hmore : more.head?.any Token.endsArgument = true)
    (tss : List (List Token)) :
    (tss.flatMap (Token.comma :: ·) ++ more).head?.any Token.endsArgument = true := by
  cases tss with
  | nil => exact hmore
  | cons ts rest => rfl

/-- A comma, and the argument behind it. -/
theorem growAll_comma {more : List Token} (hmore : more.head?.any Token.endsArgument = true)
    {ts : List Token} {e : Tree} (hread : ReadsAs ts e) {done : List Tree} {outer : Stack}
    (hcomma : growBy .tuple .comma stack = .ok (.node .tuple (done ++ [emptyGroup]) :: outer)) :
    growAll none (.comma :: (ts ++ more)) stack
      = growAll none more (.node .tuple (done ++ [.node .group [e]]) :: outer) :=
  calc growAll none (.comma :: (ts ++ more)) stack
      = growBy .tuple .comma stack >>= growAll (some .comma) (ts ++ more) := growAll_cons _ _ _ _
    _ = growAll (some .comma) (ts ++ more) (.node .tuple (done ++ [emptyGroup]) :: outer) := by
      rw [hcomma]
      rfl
    _ = growAll none ts (.node .tuple (done ++ [emptyGroup]) :: outer) >>= growAll none more := by
      rw [growAll_start rfl, growAll_append hmore]
    _ = growAll none more (.node .tuple (done ++ [.node .group [e]]) :: outer) := by
      rw [growAll_place hread (fits_later done outer)]
      rfl

theorem growAll_later {more : List Token} (hmore : more.head?.any Token.endsArgument = true)
    (h : List.Forall₂ ReadsAs tss es) : ∀ (done : List Tree) (outer : Stack),
    growAll none (tss.flatMap (Token.comma :: ·) ++ more) (.node .tuple done :: outer)
      = growAll none more (.node .tuple (done ++ es.map fun e => .node .group [e]) :: outer) := by
  induction h with
  | nil =>
    intro done outer
    rw [List.map_nil, List.append_nil]
    rfl
  | @cons ts e tss es hread _ ih =>
    intro done outer
    rw [List.flatMap_cons, List.cons_append, List.cons_append, List.append_assoc,
      growAll_comma (head?_later hmore tss) hread rfl, ih, List.map_cons, List.append_assoc]
    rfl

/-- The arguments grow behind the open parenthesis. -/
theorem growAll_argumentTokens {more : List Token}
    (hmore : more.head?.any Token.endsArgument = true) (h : List.Forall₂ ReadsAs tss es)
    (outer : Stack) : growAll none (argumentTokens tss ++ more) (emptyGroup :: outer)
      = growAll none more (openArguments es outer) := by
  cases h with
  | nil => rfl
  | @cons ts e tss es hread hlater =>
    rw [argumentTokens, List.append_assoc, growAll_append (head?_later hmore tss),
      growAll_place hread (fits_first outer)]
    cases hlater with
    | nil => rfl
    | @cons ts' e' tss es hread' hlater =>
      -- the first comma makes the tuple, the others add to it
      have hcomma : growBy .tuple .comma (.node .group [e] :: outer)
          = .ok (.node .tuple ([.node .group [e]] ++ [emptyGroup]) :: emptyGroup :: outer) := rfl
      show growAll none (.comma :: ts' ++ tss.flatMap (Token.comma :: ·) ++ more)
        (.node .group [e] :: outer) = _
      rw [List.cons_append, List.cons_append, List.append_assoc,
        growAll_comma (head?_later hmore tss) hread' hcomma, growAll_later hmore hlater]
      rfl

/-- The closing parenthesis makes one operand of them. -/
theorem close_openArguments (es : List Tree) {outer : Stack} (hne : outer ≠ []) :
    close (openArguments es outer) = grow (argumentGroup es) outer := by
  obtain ⟨u, rest, rfl⟩ := List.exists_cons_of_ne_nil hne
  rcases es with - | ⟨e, - | ⟨e', es⟩⟩
  · rfl
  · rfl
  · rfl

/-- **A list of arguments in parentheses is one operand of what stands before it.** -/
theorem growAll_arguments (h : List.Forall₂ ReadsAs tss es) (previous : Option Token)
    (rest : List Token) {outer : Stack} (hne : outer ≠ []) :
    growAll previous (.opening :: (argumentTokens tss ++ .closing :: rest)) outer
      = grow (argumentGroup es) outer >>= growAll (some .closing) rest := by
  show growAll (some .opening) (argumentTokens tss ++ .closing :: rest) (emptyGroup :: outer) = _
  rw [growAll_start rfl, growAll_argumentTokens rfl h, growAll_cons]
  show close (openArguments es outer) >>= _ = _
  rw [close_openArguments es hne]

theorem insert_leaf (o : Operator) : emptyGroup.insert (.leaf o) true = .ok (.node .group [.leaf o]) := by
  rw [emptyGroup, Tree.leaf, Tree.insert]
  rfl

/-- An operator in front takes the operand behind it. -/
theorem insert_operand {o : Operator} (ho : o.isUnary = true) {t : Tree}
    (ht : o.goesBelow t.operator = true) :
    (Tree.node .group [.leaf o]).insert t true = .ok (.node .group [.node o [t]]) := by
  have hleaf : o.isLeaf = false := by
    cases o with
    | negate | not | call f => rfl
    | _ => cases ho
  have harity : o.arity? = some 1 := by
    cases o with
    | negate | not | call f => rfl
    | _ => cases ho
  have hbelow : (Tree.leaf o).insert t false = .ok (.node o [t]) := by
    rw [Tree.leaf, Tree.insert, ht, hleaf, harity]
    rfl
  -- the group is full, and its operand is the operator
  rw [Tree.insert]
  simp only [Operator.isLeaf, Operator.arity?, Bool.true_or, List.getLast?_singleton,
    Tree.operator_leaf, List.dropLast_singleton, ht, hbelow]
  rfl

theorem isGroup_argumentGroup (es : List Tree) : (argumentGroup es).operator.isGroup = true := by
  rcases es with - | ⟨e, - | ⟨e', es⟩⟩
  · rfl
  · rfl
  · rfl

/-- **A call reads as the function with the list of its arguments.** -/
theorem ofTokens_call (f : String) (h : List.Forall₂ ReadsAs tss es) :
    Tree.ofTokens (callTokens f tss) = .ok (.node .group [callTree f es]) := by
  have hname : growAll none (callTokens f tss) [emptyGroup]
      = growAll (some (.name f)) (.opening :: (argumentTokens tss ++ [.closing]))
          [.node .group [.leaf (.call f)]] := by
    rw [callTokens, List.cons_append, List.cons_append, growAll_cons]
    show (emptyGroup.insert (.leaf (.call f)) true >>= fun top => .ok [top]) >>= _ = _
    rw [insert_leaf]
    rfl
  have hcall : grow (argumentGroup es) [.node .group [.leaf (.call f)]]
      = .ok [.node .group [callTree f es]] := by
    have hg := isGroup_argumentGroup es
    rw [grow_cons (Operator.isSequence_group hg), Tree.extend_group rfl,
      insert_operand rfl (by rw [Operator.eq_group hg]; rfl)]
    rfl
  rw [ofTokens_eq, hname, growAll_arguments h _ [] (List.cons_ne_nil _ _), hcall]
  rfl

/-! ## Evaluation

What a process does after another, in whichever way the two are put together. -/

namespace Process

variable {α β γ ε : Type}

theorem bind_assoc (p : Process α) (k : α → Process β) (l : β → Process γ) :
    (p.bind k).bind l = p.bind fun a => (k a).bind l := by
  induction p with
  | done a => rfl
  | panicked m => rfl
  | log line next ih => rw [log_bind, log_bind, log_bind, ih]
  | invoke f args next ih =>
    rw [invoke_bind, invoke_bind, invoke_bind]
    exact congrArg _ (funext ih)

theorem andThen_assoc (p : Process (Except ε α)) (k : α → Process (Except ε β))
    (l : β → Process (Except ε γ)) :
    (p.andThen k).andThen l = p.andThen fun a => (k a).andThen l := by
  unfold andThen
  rw [bind_assoc]
  congr 1
  funext r
  cases r <;> rfl

theorem bind_done (p : Process α) : p.bind done = p := by
  induction p with
  | done a => rfl
  | panicked m => rfl
  | log line next ih => rw [log_bind, ih]
  | invoke f args next ih =>
    rw [invoke_bind]
    exact congrArg _ (funext ih)

theorem andThen_done (p : Process (Except ε α)) : (p.andThen fun a => .done (.ok a)) = p := by
  refine (congrArg p.bind (funext fun r => ?_)).trans (bind_done p)
  cases r <;> rfl

theorem done_andThen (a : α) (k : α → Process (Except ε β)) :
    (done (.ok a) : Process (Except ε α)).andThen k = k a := rfl

end Process

open Process (andThen_assoc andThen_done done_andThen)

variable {s : Scope} {vars : Variables}

theorem eval_group (s : Scope) (e : Tree) (vars : Variables) :
    s.eval (.node .group [e]) vars = s.eval e vars := by
  rw [Scope.eval, Scope.evalAll, andThen_assoc]
  exact andThen_done _

theorem evalAll_groups (s : Scope) (es : List Tree) (vars : Variables) :
    s.evalAll (es.map fun e => .node .group [e]) vars = s.evalAll es vars := by
  induction es generalizing vars with
  | nil => rfl
  | cons e es ih => simp only [List.map_cons, Scope.evalAll, eval_group, ih]

/-- The one value that stands for the arguments. -/
def argumentValue : List Value → Value
  | [] => .empty
  | [v] => v
  | v :: w :: vs => .tuple (v :: w :: vs)

/-- What a command is called with for the values of its arguments. -/
def handedOver (vs : List Value) : List Json := commandArguments (argumentValue vs)

/-- A list of arguments evaluates to the value that stands for them. -/
theorem eval_argumentGroup (s : Scope) (es : List Tree) (vars : Variables) :
    s.eval (argumentGroup es) vars
      = (s.evalAll es vars).andThen fun (vs, vars) => .done (.ok (argumentValue vs, vars)) := by
  rcases es with - | ⟨e, - | ⟨e', es⟩⟩
  · rfl
  · rw [argumentGroup, eval_group, Scope.evalAll, andThen_assoc]
    exact (andThen_done _).symm
  · have htuple : s.eval (argumentGroup (e :: e' :: es)) vars
        = (s.evalAll (e :: e' :: es) vars).andThen fun (vs, vars) =>
          .done (.ok (.tuple vs, vars)) := by
      rw [argumentGroup, eval_group, Scope.eval, evalAll_groups]
      rfl
    rw [htuple]
    simp only [Scope.evalAll, andThen_assoc, done_andThen]
    rfl

/-- **A call evaluates its arguments, then calls the command with what is handed over for them.** -/
theorem eval_callTree (hf : f ∈ s.commands) (es : List Tree) (vars : Variables) :
    s.eval (callTree f es) vars = (s.evalAll es vars).andThen fun (vs, vars) =>
      .invoke f (handedOver vs) fun r => .done (r.value.map (·, vars)) := by
  have hcall : ∀ v, s.call f v = .invoke f (commandArguments v) fun r => .done r.value :=
    fun v => if_pos (List.contains_iff_mem.mpr hf)
  have happly : ∀ (v : Value) (vars : Variables), s.apply (.call f) [v] vars
      = .invoke f (commandArguments v) fun r => .done (r.value.map (·, vars)) := by
    intro v vars
    show (s.call f v).andThen _ = _
    rw [hcall]
    refine congrArg (Process.invoke f (commandArguments v)) (funext fun r => ?_)
    show (Process.done r.value).andThen _ = _
    cases r.value <;> rfl
  rw [callTree, Scope.eval, Scope.evalAll, eval_argumentGroup, andThen_assoc, andThen_assoc]
  refine congrArg (s.evalAll es vars).andThen (funext fun operands => ?_)
  obtain ⟨vs, vars⟩ := operands
  exact happly (argumentValue vs) vars

/-! ## What is handed over -/

theorem toJsonItems_eq_map (vs : List Value) : Value.toJsonItems vs = vs.map Value.toJson := by
  induction vs with
  | nil => rfl
  | cons v vs ih => rw [Value.toJsonItems, List.map_cons, ih]

/-- No list is the only item of itself. -/
theorem ne_singleton_arr (items : List Json) : items ≠ [.arr items] := by
  intro h
  have hsize := congrArg sizeOf h
  simp only [List.cons.sizeOf_spec, List.nil.sizeOf_spec, Json.arr.sizeOf_spec] at hsize
  omega

/-- The arguments arrive as they are, unless the only one is the empty value or a tuple. -/
theorem handedOver_eq_iff (vs : List Value) : handedOver vs = vs.map Value.toJson ↔
    ∀ v, vs = [v] → v.kind ≠ .empty ∧ v.kind ≠ .tuple := by
  rcases vs with - | ⟨v, - | ⟨w, vs⟩⟩
  · exact iff_of_true rfl fun v hv => by cases hv
  · have hone : (∀ x, [v] = [x] → x.kind ≠ .empty ∧ x.kind ≠ .tuple) ↔
        v.kind ≠ .empty ∧ v.kind ≠ .tuple :=
      ⟨fun h => h v rfl, fun h x hx => by cases hx; exact h⟩
    rw [hone]
    cases v with
    | empty => exact iff_of_false (fun h => by cases h) fun h => h.1 rfl
    | tuple ws => exact iff_of_false (ne_singleton_arr _) fun h => h.2 rfl
    | _ => exact iff_of_true rfl ⟨Kind.noConfusion, Kind.noConfusion⟩
  · exact iff_of_true (toJsonItems_eq_map _) fun x hx => by cases hx

/-! ## In given surroundings -/

section Surroundings

variable {σ α β ε : Type} {respond : σ → String → List Json → σ × Response}

theorem attend_bind (p : Process α) (k : α → Process β) (flag : Bool) (st : σ) :
    (p.bind k).attend respond flag st
      = (p.attend respond flag st).bind fun a flag st => (k a).attend respond flag st := by
  induction p generalizing flag st with
  | done a => rfl
  | panicked m => rfl
  | log line next ih =>
    rw [Process.log_bind, Process.attend, ih, Process.attend]
    simp only [Course.bind, Course.after]
    cases (next.attend respond flag st).result <;> rfl
  | invoke g args next ih =>
    rw [Process.invoke_bind, Process.attend, Process.attend]
    split
    · exact ih .cancelled flag st
    · cases respond st g args with
      | mk st' response =>
        cases response with
        | panic m => rfl
        | answer cancels reply =>
          dsimp only
          rw [ih]
          simp only [Course.bind, Course.after]
          cases ((next (.ofAnswer reply)).attend respond cancels st').result <;> rfl

/-- What is done after a process that ends with a value. -/
theorem effects_andThen {p : Process (Except ε α)} {a : α} {flag : Bool} {st : σ}
    (h : (p.attend respond flag st).result = .ok (.ok a)) (k : α → Process (Except ε β)) :
    ((p.andThen k).attend respond flag st).effects = (p.attend respond flag st).effects ++
      ((k a).attend respond (p.attend respond flag st).cancelled
        (p.attend respond flag st).state).effects := by
  rw [Process.andThen, attend_bind, Course.bind, h]

/-- Only if a process ends with a value something goes on after it. -/
theorem attend_andThen_ok {p : Process (Except ε α)} {k : α → Process (Except ε β)} {b : β}
    {flag : Bool} {st : σ} (h : ((p.andThen k).attend respond flag st).result = .ok (.ok b)) :
    ∃ a, (p.attend respond flag st).result = .ok (.ok a) ∧
      ((k a).attend respond (p.attend respond flag st).cancelled
        (p.attend respond flag st).state).result = .ok (.ok b) := by
  rw [Process.andThen, attend_bind, Course.bind] at h
  cases hp : (p.attend respond flag st).result with
  | error m => rw [hp] at h; cases h
  | ok r =>
    rw [hp] at h
    cases r with
    | error e => cases h
    | ok a => exact ⟨a, rfl, h⟩

/-- Putting the result into other words does nothing. -/
theorem effects_andThen_done (p : Process (Except ε α)) (k : α → Except ε β) (flag : Bool) (st : σ) :
    ((p.andThen fun a => .done (k a)).attend respond flag st).effects
      = (p.attend respond flag st).effects := by
  rw [Process.andThen, attend_bind, Course.bind]
  cases (p.attend respond flag st).result with
  | error m => rfl
  | ok r => cases r <;> exact List.append_nil _

/-- There is a value for every argument. -/
theorem length_evalAll (s : Scope) : ∀ (es : List Tree) (vars : Variables) (flag : Bool) (st : σ)
    (vs : List Value) (vars' : Variables),
    ((s.evalAll es vars).attend respond flag st).result = .ok (.ok (vs, vars')) →
    vs.length = es.length := by
  intro es
  induction es with
  | nil =>
    intro vars flag st vs vars' h
    cases h
    rfl
  | cons e es ih =>
    intro vars flag st vs vars' h
    rw [Scope.evalAll] at h
    obtain ⟨⟨v, vars₁⟩, -, hrest⟩ := attend_andThen_ok h
    obtain ⟨⟨ws, vars₂⟩, hws, hdone⟩ := attend_andThen_ok hrest
    cases hdone
    exact congrArg (· + 1) (ih _ _ _ ws _ hws)

/-- A call does what its arguments do, and then it calls the command once. -/
theorem effects_callTree {s : Scope} (hf : f ∈ s.commands) (es : List Tree) (vars : Variables)
    (st : σ) {vs : List Value} {vars' : Variables}
    (h : ((s.evalAll es vars).attend respond false st).result = .ok (.ok (vs, vars')))
    (hflag : ((s.evalAll es vars).attend respond false st).cancelled = false) :
    ((s.eval (callTree f es) vars).attend respond false st).effects
      = ((s.evalAll es vars).attend respond false st).effects ++ [.called f (handedOver vs)] := by
  rw [eval_callTree hf, effects_andThen h, hflag]
  refine congrArg (_ ++ ·) ?_
  dsimp only
  rw [Process.attend, if_neg Bool.false_ne_true]
  cases respond ((s.evalAll es vars).attend respond false st).state f (handedOver vs) with
  | mk st' response => cases response <;> rfl

end Surroundings

end Script

open Script

namespace Evaluator

variable {f : String} {tss : List (List Token)} {es : List Tree}

/-- The text of a call does what the call does. -/
theorem effects_text {σ : Type} {respond : σ → String → List Json → σ × Response} {e : Evaluator}
    (he : e.Sound) {text : String} {t : Tree} (ht : Tree.ofText text = .ok (.node .group [t]))
    (p : Purpose) (c : Context) (st : σ) : (e.attend respond p text c false st).2.effects
      = (((c.scope p).eval t c.initialVariables).attend respond false st).effects := by
  have hstart : (e.start p text c false).2
      = .ok ((c.scope p).run (.node .group [t]) c.initialVariables) := by
    rw [he.start, looks, Bool.and_false, read, ht]
    rfl
  unfold attend
  dsimp only
  rw [hstart]
  show (((c.scope p).run (.node .group [t]) c.initialVariables).attend respond false st).effects = _
  rw [Scope.run, eval_group]
  exact effects_andThen_done _ _ _ _

/-- **A command is called with the values of the arguments of its call, in their order and as many as were
written, unless the only one is the empty value or a tuple.** Whatever the arguments are, if they evaluate to
values and the run has not been cancelled by then, the command is called once after all that they did
themselves; in a condition or an action that is the call, and wherever a script has it in its tree. A call
without arguments hands over nothing. One with the empty value as its only argument hands over nothing either,
and one with a tuple hands over the items of the tuple. -/
theorem call_arguments (f : String) {tss : List (List Token)} {es : List Tree}
    (h : List.Forall₂ ReadsAs tss es) {σ : Type}
    (respond : σ → String → List Json → σ × Response) :
    (∀ (e : Evaluator) (text : String) (p : Purpose) (c : Context) (st : σ) (vs : List Value)
        (vars : Variables), e.Sound → tokens text = .ok (callTokens f tss) → f ∈ c.commands →
      let operands := ((c.scope p).evalAll es c.initialVariables).attend respond false st
      operands.result = .ok (.ok (vs, vars)) → operands.cancelled = false →
      vs.length = tss.length ∧ (match p with
        | .condition => (e.judge respond text c false st).2.effects
        | .action => (e.act respond text c false st).2.effects)
          = operands.effects ++ [.called f (handedOver vs)]) ∧
    (∀ (s : Scope) (vars : Variables) (st : σ) (vs : List Value) (vars' : Variables),
      f ∈ s.commands →
      let operands := (s.evalAll es vars).attend respond false st
      operands.result = .ok (.ok (vs, vars')) → operands.cancelled = false →
      ((s.eval (callTree f es) vars).attend respond false st).effects
        = operands.effects ++ [.called f (handedOver vs)]) ∧
    (∀ vs, handedOver vs = vs.map Value.toJson ↔
      ∀ v, vs = [v] → v.kind ≠ .empty ∧ v.kind ≠ .tuple) ∧
    handedOver [.empty] = [] ∧ ∀ ws, handedOver [.tuple ws] = ws.map Value.toJson := by
  refine ⟨fun e text p c st vs vars he htext hf hvs hflag => ⟨?_, ?_⟩,
    fun s vars st vs vars' hf hvs hflag => effects_callTree hf es vars st hvs hflag,
    handedOver_eq_iff, rfl, toJsonItems_eq_map⟩
  · exact (length_evalAll _ es _ _ _ vs vars hvs).trans h.length_eq.symm
  · have hread : Tree.ofText text = .ok (.node .group [callTree f es]) := by
      rw [Tree.ofText, htext]
      exact ofTokens_call f h
    have hcall := effects_callTree (s := c.scope p) hf es c.initialVariables st hvs hflag
    cases p with
    | condition => exact (effects_text he hread .condition c st).trans hcall
    | action => exact (effects_text he hread .action c st).trans hcall

theorem readsAs_name (x : String) : ReadsAs [.name x] (.leaf (.read x)) where
  reads := by
    have hgrow : growAll none [.name x] [emptyGroup] = .ok [.node .group [.leaf (.read x)]] := by
      rw [growAll_cons]
      show (emptyGroup.insert (.leaf (.read x)) true >>= fun top => .ok [top]) >>= _ = _
      rw [insert_leaf]
      rfl
    rw [ofTokens_eq, hgrow]
    rfl
  single := rfl

/-- A run with a value, at which `f` is bound. -/
def holding (value : Json) : Context :=
  { trigger := { (default : Trigger) with value }, facts := [], commands := ["f"] }

/-- A command that gives back what it is called with. -/
def echo (_ : Unit) (_ : String) (args : List Json) : Unit × Response :=
  ((), .answer false (.ok (.arr args)))

/-- As two of two arguments, empty values arrive. -/
theorem echo_two : (({} : Evaluator).act echo "f(value, value)" (holding .null) false ()).2.effects
    = [.called "f" [.null, .null]] := by
  have hread : List.Forall₂ ReadsAs [[.name "value"], [.name "value"]]
      [.leaf (.read "value"), .leaf (.read "value")] :=
    .cons (readsAs_name "value") (.cons (readsAs_name "value") .nil)
  obtain ⟨htext, -⟩ := call_arguments "f" hread echo
  exact (htext {} "f(value, value)" .action (holding .null) () [.empty, .empty]
    (holding .null).initialVariables (sound_clear {}) rfl (List.mem_singleton.mpr rfl) rfl rfl).2

theorem effects_lone (value : Json) :
    (({} : Evaluator).act echo "f(value)" (holding value) false ()).2.effects
      = [.called "f" (handedOver [Value.ofJson value])] := by
  have hread : Tree.ofText "f(value)" = .ok (.node .group [callTree "f" [.leaf (.read "value")]]) :=
    ofTokens_call "f" (.cons (readsAs_name "value") .nil)
  let s := (holding value).scope .action
  let vars := (holding value).initialVariables
  have hvs : ((s.evalAll [.leaf (.read "value")] vars).attend echo false ()).result
      = .ok (.ok ([Value.ofJson value], vars)) := rfl
  have hcall := effects_callTree (List.mem_singleton.mpr rfl) [.leaf (.read "value")] vars () hvs rfl
  exact (effects_text (sound_clear {}) hread .action (holding value) ()).trans hcall

/-- **As the only argument, `null` does not arrive, and an array arrives in pieces.** -/
theorem lone_argument_lost :
    (({} : Evaluator).act echo "f(value)" (holding .null) false ()).2.effects = [.called "f" []] ∧
      (({} : Evaluator).act echo "f(value)" (holding (.arr [.int 1, .int 2])) false ()).2.effects
        = [.called "f" [.int 1, .int 2]] :=
  ⟨effects_lone .null, effects_lone (.arr [.int 1, .int 2])⟩

end Evaluator

end ReactiveRules
