import Mathlib
import SqlTemplate.Transaction

/-!
# The scopes of transactions

What a connection sees of transactions that are run on it one after the other: each of them opens a
scope, makes the requests of its body inside it, and closes it, or is not let in at all. However the
bodies end and whatever the connection answers, no scope is left open or opened inside another, and
nothing stands outside a scope (`Link.transactions_scopes`).
-/

set_option autoImplicit false

namespace SqlTemplate

variable {σ ρ γ α : Type}

/-! ## Bodies and connections -/

/-- What a body does inside a transaction: it ends, or makes a request and goes on with the
answer. -/
inductive TransactionBody (ρ γ α : Type)
  | ends (outcome : Outcome α)
  | asks (request : ρ) (next : γ → TransactionBody ρ γ α)

/-- A connection that answers requests. -/
structure Link (σ ρ γ : Type) extends Connection σ where
  answer : ρ → StateM σ γ

/-- What a connection is asked for, with what it answers. -/
inductive LinkEvent (ρ γ : Type)
  | begin (result : Except Error Unit)
  | request (request : ρ) (answer : γ)
  | commit (result : Except Error Unit)
  | rollback (result : Except Error Unit)

/-- Runs a body on a connection. -/
def TransactionBody.run (link : Link σ ρ γ) : TransactionBody ρ γ α → StateM σ (Outcome α)
  | .ends outcome => return outcome
  | .asks request next => do
    let answer ← link.answer request
    (next answer).run link

/-- Runs transactions on a connection, one after the other. -/
def Link.transactions (link : Link σ ρ γ) :
    List (TransactionBody ρ γ α) → StateM σ (List (Outcome α))
  | [] => return []
  | body :: rest => do
    let outcome ← link.transaction (body.run link)
    let outcomes ← link.transactions rest
    return outcome :: outcomes

/-- A step that is also entered in a list. -/
def LinkEvent.entered {A : Type} (m : StateM σ A) (event : A → LinkEvent ρ γ) :
    StateM (σ × List (LinkEvent ρ γ)) A :=
  fun (s, events) => ((m s).1, (m s).2, events ++ [event (m s).1])

/-- A connection that keeps a list of what it is asked for. -/
def Link.traced (link : Link σ ρ γ) : Link (σ × List (LinkEvent ρ γ)) ρ γ where
  begin := LinkEvent.entered link.begin .begin
  commit := LinkEvent.entered link.commit .commit
  rollback := LinkEvent.entered link.rollback .rollback
  answer request := LinkEvent.entered (link.answer request) (.request request)

/-! ## Scopes -/

namespace TransactionBody

/-- The requests of a body with the answers to them, and how the body ends then. -/
inductive Goes : TransactionBody ρ γ α → List (LinkEvent ρ γ) → Outcome α → Prop
  | ends (outcome : Outcome α) : Goes (.ends outcome) [] outcome
  | asks (request : ρ) {next : γ → TransactionBody ρ γ α} (answer : γ)
      {events : List (LinkEvent ρ γ)} {outcome : Outcome α}
      (h : Goes (next answer) events outcome) :
      Goes (.asks request next) (.request request answer :: events) outcome

/-- **What a connection sees of one transaction, and what the caller gets.** If the transaction
cannot be begun, the body does not run, and the caller gets the error. Otherwise the requests of the
body follow. A body that returned a value is committed, and the caller gets the value, or the error
of the commit; any other body is rolled back, and the caller gets what the body ended with, whatever
becomes of that. -/
inductive Scope (body : TransactionBody ρ γ α) : List (LinkEvent ρ γ) → Outcome α → Prop
  | refused (e : Error) : Scope body [.begin (.error e)] (.failed e)
  | committed {events : List (LinkEvent ρ γ)} {a : α} (h : body.Goes events (.returned a)) :
      Scope body (.begin (.ok ()) :: (events ++ [.commit (.ok ())])) (.returned a)
  | uncommitted {events : List (LinkEvent ρ γ)} {a : α} (h : body.Goes events (.returned a))
      (e : Error) : Scope body (.begin (.ok ()) :: (events ++ [.commit (.error e)])) (.failed e)
  | undone {events : List (LinkEvent ρ γ)} {outcome : Outcome α} (h : body.Goes events outcome)
      (hends : outcome.isReturned = false) (result : Except Error Unit) :
      Scope body (.begin (.ok ()) :: (events ++ [.rollback result])) outcome

end TransactionBody

namespace LinkEvent

/-- What an event makes of a connection on which a scope is open or not; `none` if the event has no
place there. -/
def step : Bool → LinkEvent ρ γ → Option Bool
  | false, .begin (.ok _) => some true
  | false, .begin (.error _) => some false
  | true, .request _ _ => some true
  | true, .commit _ => some false
  | true, .rollback _ => some false
  | _, _ => none

/-- What events make of a connection, one after the other. -/
def runs (isOpen : Bool) (events : List (LinkEvent ρ γ)) : Option Bool :=
  events.foldlM step isOpen

theorem runs_append (isOpen : Bool) (front back : List (LinkEvent ρ γ)) :
    runs isOpen (front ++ back) = (runs isOpen front).bind fun now => runs now back :=
  List.foldlM_append

end LinkEvent

/-- The requests of a body have their place inside a scope, and leave it open. -/
theorem TransactionBody.Goes.runs {body : TransactionBody ρ γ α} {events : List (LinkEvent ρ γ)}
    {outcome : Outcome α} (h : body.Goes events outcome) :
    LinkEvent.runs true events = some true := by
  induction h with
  | ends outcome => rfl
  | asks request answer h ih => exact ih

/-- Behind a transaction no scope is open. -/
theorem TransactionBody.Scope.runs {body : TransactionBody ρ γ α} {events : List (LinkEvent ρ γ)}
    {outcome : Outcome α} (h : body.Scope events outcome) :
    LinkEvent.runs false events = some false := by
  -- Behind the begin stand the requests of the body, and one event that closes the scope.
  have hcloses : ∀ {inner : List (LinkEvent ρ γ)} {ended : Outcome α} (last : LinkEvent ρ γ),
      body.Goes inner ended → LinkEvent.step true last = some false →
      LinkEvent.runs false (.begin (.ok ()) :: (inner ++ [last])) = some false := by
    intro inner ended last hgoes hlast
    calc LinkEvent.runs false (.begin (.ok ()) :: (inner ++ [last]))
        = (LinkEvent.runs true inner).bind fun now => LinkEvent.runs now [last] :=
          LinkEvent.runs_append true inner [last]
      _ = LinkEvent.runs true [last] := by rw [hgoes.runs]; rfl
      _ = some false := by rw [LinkEvent.runs, List.foldlM_cons, hlast]; rfl
  cases h with
  | refused e => rfl
  | committed hgoes => exact hcloses _ hgoes rfl
  | uncommitted hgoes e => exact hcloses _ hgoes rfl
  | undone hgoes hends result => exact hcloses _ hgoes rfl

theorem TransactionBody.Scope.runs_flatMap {bodies : List (TransactionBody ρ γ α)}
    {scopes : List (List (LinkEvent ρ γ) × Outcome α)}
    (h : List.Forall₂ (fun body scope => body.Scope scope.1 scope.2) bodies scopes) :
    LinkEvent.runs false (scopes.flatMap (·.1)) = some false := by
  induction h with
  | nil => rfl
  | cons hscope _ ih =>
      rw [List.flatMap_cons, LinkEvent.runs_append, hscope.runs]
      exact ih

/-! ## Steps that are watched -/

/-- The step that keeps a list does what the step does, and what it enters in the list has a
property that may speak of its result. -/
def Watches {A : Type} (m' : StateM (σ × List (LinkEvent ρ γ)) A) (m : StateM σ A)
    (Q : List (LinkEvent ρ γ) → A → Prop) : Prop :=
  ∀ s trace, ∃ events, m' (s, trace) = ((m s).1, (m s).2, trace ++ events) ∧ Q events (m s).1

namespace Watches

variable {A B : Type}

theorem pure {Q : List (LinkEvent ρ γ) → A → Prop} {a : A} (h : Q [] a) :
    Watches (pure a : StateM (σ × List (LinkEvent ρ γ)) A) (pure a : StateM σ A) Q := by
  intro s trace
  refine ⟨[], ?_, h⟩
  rw [List.append_nil]
  rfl

theorem entered (m : StateM σ A) (event : A → LinkEvent ρ γ) :
    Watches (LinkEvent.entered m event) m fun events a => events = [event a] :=
  fun s _ => ⟨[event (m s).1], rfl, rfl⟩

theorem bind {m' : StateM (σ × List (LinkEvent ρ γ)) A} {m : StateM σ A}
    {k' : A → StateM (σ × List (LinkEvent ρ γ)) B} {k : A → StateM σ B}
    {Q : List (LinkEvent ρ γ) → A → Prop} {R : List (LinkEvent ρ γ) → B → Prop}
    (hm : Watches m' m Q)
    (hk : ∀ a front, Q front a → Watches (k' a) (k a) fun back b => R (front ++ back) b) :
    Watches (m' >>= k') (m >>= k) R := by
  intro s trace
  obtain ⟨front, hfirst, hfront⟩ := hm s trace
  obtain ⟨back, hsecond, hback⟩ := hk _ front hfront (m s).2 (trace ++ front)
  refine ⟨front ++ back, ?_, hback⟩
  calc (m' >>= k') (s, trace)
      = k' (m' (s, trace)).1 (m' (s, trace)).2 := rfl
    _ = k' (m s).1 ((m s).2, trace ++ front) := by rw [hfirst]
    _ = (((m >>= k) s).1, ((m >>= k) s).2, trace ++ (front ++ back)) := by
        rw [hsecond, List.append_assoc]
        rfl

theorem mono {m' : StateM (σ × List (LinkEvent ρ γ)) A} {m : StateM σ A}
    {Q R : List (LinkEvent ρ γ) → A → Prop} (h : Watches m' m Q)
    (hR : ∀ events a, Q events a → R events a) : Watches m' m R := by
  intro s trace
  obtain ⟨events, heq, hQ⟩ := h s trace
  exact ⟨events, heq, hR events _ hQ⟩

end Watches

/-! ## What a connection sees -/

theorem TransactionBody.run_watched (link : Link σ ρ γ) (body : TransactionBody ρ γ α) :
    Watches (body.run link.traced) (body.run link) body.Goes := by
  induction body with
  | ends outcome => exact .pure (.ends outcome)
  | asks request next ih =>
      refine .bind (.entered (link.answer request) _) fun answer front hfront => ?_
      subst hfront
      exact (ih answer).mono fun events outcome h => .asks request answer h

/-- A scope is closed as the outcome of its body demands. -/
theorem Link.close_watched (link : Link σ ρ γ) {body : TransactionBody ρ γ α}
    {events : List (LinkEvent ρ γ)} {outcome : Outcome α} (h : body.Goes events outcome) :
    Watches (link.traced.close outcome) (link.close outcome)
      fun last result => body.Scope (.begin (.ok ()) :: (events ++ last)) result := by
  have hundone : outcome.isReturned = false →
      Watches (link.traced.rollback >>= fun _ => pure outcome)
        (link.rollback >>= fun _ => pure outcome)
        fun last result => body.Scope (.begin (.ok ()) :: (events ++ last)) result := by
    intro hends
    refine .bind (.entered link.rollback _) fun result last hlast => .pure ?_
    subst hlast
    exact .undone h hends result
  cases outcome with
  | returned a =>
      refine .bind (.entered link.commit _) fun result last hlast => ?_
      subst hlast
      cases result with
      | ok _ => exact .pure (.committed h)
      | error e => exact .pure (.uncommitted h e)
  | failed e => exact hundone rfl
  | crashed text => exact hundone rfl

/-- One transaction is one scope. -/
theorem Link.transaction_watched (link : Link σ ρ γ) (body : TransactionBody ρ γ α) :
    Watches (link.traced.transaction (body.run link.traced)) (link.transaction (body.run link))
      body.Scope := by
  refine .bind (.entered link.begin _) fun result front hfront => ?_
  subst hfront
  cases result with
  | error e => exact .pure (.refused e)
  | ok _ => exact .bind (body.run_watched link) fun outcome events h => link.close_watched h

/-- Transactions are as many scopes, one behind the other. -/
theorem Link.transactions_watched (link : Link σ ρ γ) (bodies : List (TransactionBody ρ γ α)) :
    Watches (link.traced.transactions bodies) (link.transactions bodies) fun events outcomes =>
      ∃ scopes : List (List (LinkEvent ρ γ) × Outcome α),
        List.Forall₂ (fun body scope => body.Scope scope.1 scope.2) bodies scopes ∧
        outcomes = scopes.map (·.2) ∧ events = scopes.flatMap (·.1) := by
  induction bodies with
  | nil => exact .pure ⟨[], .nil, rfl, rfl⟩
  | cons body rest ih =>
      refine .bind (link.transaction_watched body) fun outcome front hfront => ?_
      refine .bind ih fun outcomes back hback => .pure ?_
      obtain ⟨scopes, hscopes, houtcomes, hevents⟩ := hback
      refine ⟨(front, outcome) :: scopes, .cons hfront hscopes, ?_, ?_⟩
      · rw [houtcomes, List.map_cons]
      · rw [hevents, List.append_nil, List.flatMap_cons]

/-- **Every transaction is one scope, and there is nothing else.** Let transactions be run on a
connection one after the other, whatever their bodies ask for and however they end, and whatever the
connection answers. What the connection sees is put together of one scope for each transaction, in
their order, with the requests of its body between its begin and its commit or rollback, and the
caller gets for each what its scope says. So no scope is opened inside another, nothing but a begin
stands outside of scopes, and none is left open. That the connection keeps a list of what it sees
makes no other difference. -/
theorem Link.transactions_scopes (link : Link σ ρ γ) (bodies : List (TransactionBody ρ γ α))
    (start : σ) :
    ∃ scopes : List (List (LinkEvent ρ γ) × Outcome α),
      List.Forall₂ (fun body scope => body.Scope scope.1 scope.2) bodies scopes ∧
      (link.transactions bodies start).1 = scopes.map (·.2) ∧
      link.traced.transactions bodies (start, []) =
        ((link.transactions bodies start).1, (link.transactions bodies start).2,
          scopes.flatMap (·.1)) ∧
      LinkEvent.runs false (scopes.flatMap (·.1)) = some false := by
  obtain ⟨events, hrun, scopes, hscopes, houtcomes, hevents⟩ :=
    link.transactions_watched bodies start []
  subst hevents
  exact ⟨scopes, hscopes, houtcomes, hrun, TransactionBody.Scope.runs_flatMap hscopes⟩

end SqlTemplate
