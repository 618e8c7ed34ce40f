import Mathlib.Order.WellFounded

/-!
# Call trees

The body of a recursive function with its calls left open is a tree: it is done with a reply, or it
makes a call and goes on with whatever the call returns, or it is stuck.  A function is then given
by one tree for each query, and nothing is said of whether its recursion ends.  Running it says what
a tree returns (`CallTree.Returns`), and which calls are made on the way (`CallTree.Calls`).

**Ending.**  Let there be an answer for each query.  If every tree, with its calls answered, is done
with the answer for its query, and only makes calls that are smaller in a well-founded order, then
running the function returns the answers (`CallTree.returns_of_descends`).  What holds of queries
and of answers may be used on the way, as long as it holds of the calls again.
-/

namespace Syntagm

/-- The body of a recursive function, with its calls left open. -/
inductive CallTree (Query Reply : Type) where
  | done (reply : Reply)
  /-- There is no way to go on. -/
  | stuck
  /-- A call, and how to go on with what it returns. -/
  | call (query : Query) (rest : Reply → CallTree Query Reply)

namespace CallTree

variable {Query Reply : Type}

/-- Goes on with a reply where a tree is done. -/
def bind : CallTree Query Reply → (Reply → CallTree Query Reply) → CallTree Query Reply
  | .done reply, next => next reply
  | .stuck, _ => .stuck
  | .call query rest, next => .call query fun returned => (rest returned).bind next

variable (body : Query → CallTree Query Reply)

/-- **What a tree returns** when every call runs the body of its query. -/
inductive Returns : CallTree Query Reply → Reply → Prop where
  | done {reply} : Returns (.done reply) reply
  | call {query rest returned reply} (inner : Returns (body query) returned)
      (outer : Returns (rest returned) reply) : Returns (.call query rest) reply

/-- **The calls that a tree makes** when every call in front of them returns. -/
inductive Calls : CallTree Query Reply → Query → Prop where
  | now {query rest} : Calls (.call query rest) query
  | later {query rest returned other} (inner : Returns body (body query) returned)
      (outer : Calls (rest returned) other) : Calls (.call query rest) other

/-- A tree makes only calls that it may make and is done with a reply, if its calls are answered. -/
inductive Answered (may : Query → Prop) (answer : Query → Reply) :
    CallTree Query Reply → Reply → Prop where
  | done {reply} : Answered may answer (.done reply) reply
  | call {query rest reply} (allowed : may query)
      (outer : Answered may answer (rest (answer query)) reply) :
      Answered may answer (.call query rest) reply

variable {body} {tree : CallTree Query Reply} {reply : Reply} {may : Query → Prop}
  {answer : Query → Reply}

/-- **There is one thing that a tree returns.** -/
theorem Returns.unique {other : Reply} (h : Returns body tree reply)
    (h' : Returns body tree other) : reply = other := by
  induction h generalizing other with
  | done =>
    cases h'
    rfl
  | call _ _ ihInner ihOuter =>
    cases h' with
    | call inner outer =>
      obtain rfl := ihInner inner
      exact ihOuter outer

namespace Answered

theorem mono {other : Query → Prop} (h : Answered may answer tree reply)
    (le : ∀ query, may query → other query) : Answered other answer tree reply := by
  induction h with
  | done => exact .done
  | call allowed _ ih => exact .call (le _ allowed) ih

theorem bind {next : Reply → CallTree Query Reply} {final : Reply}
    (h : Answered may answer tree reply) (h' : Answered may answer (next reply) final) :
    Answered may answer (tree.bind next) final := by
  induction h with
  | done => exact h'
  | call allowed _ ih => exact .call allowed (ih h')

variable (right : ∀ query, may query → Returns body (body query) (answer query))
include right

/-- If the answers are what calls return, then running a tree is answering its calls. -/
theorem returns (h : Answered may answer tree reply) : Returns body tree reply := by
  induction h with
  | done => exact .done
  | call allowed _ ih => exact .call (right _ allowed) ih

theorem allows {query : Query} (h : Answered may answer tree reply)
    (calls : Calls body tree query) : may query := by
  induction h with
  | done => cases calls
  | call allowed _ ih =>
    cases calls with
    | now => exact allowed
    | later inner outer =>
      obtain rfl := inner.unique (right _ allowed)
      exact ih outer

end Answered

/-- **A function whose calls descend returns its answers**, and the calls that it makes on the way
are as healthy as the one that it was given. -/
theorem returns_of_descends {Measure : Type} [LT Measure] [WellFoundedLT Measure]
    (measure : Query → Measure) (healthy : Query → Prop) (sound : Query → Reply → Prop)
    (step : ∀ query, healthy query →
      (∀ other, healthy other → measure other < measure query → sound other (answer other)) →
      Answered (fun other => healthy other ∧ measure other < measure query) answer (body query)
        (answer query) ∧ sound query (answer query))
    {query : Query} (start : healthy query) :
    Returns body (body query) (answer query) ∧ sound query (answer query) ∧
      ∀ other, Calls body (body query) other → healthy other ∧ measure other < measure query := by
  induction hmeasure : measure query using WellFoundedLT.induction generalizing query with
  | ind _ ih =>
    subst hmeasure
    obtain ⟨hanswered, hsound⟩ := step query start fun other hother hlt => (ih _ hlt hother rfl).2.1
    have hright (other : Query) (may : healthy other ∧ measure other < measure query) :
        Returns body (body other) (answer other) := (ih _ may.2 may.1 rfl).1
    exact ⟨hanswered.returns hright, hsound, fun other => hanswered.allows hright⟩

/-- The same where nothing has to be said of queries and of answers. -/
theorem returns_of_smaller {Measure : Type} [LT Measure] [WellFoundedLT Measure]
    (measure : Query → Measure)
    (step : ∀ query, Answered (fun other => measure other < measure query) answer (body query)
      (answer query))
    (query : Query) :
    Returns body (body query) (answer query) ∧
      ∀ other, Calls body (body query) other → measure other < measure query := by
  obtain ⟨hreturns, -, hsmaller⟩ := returns_of_descends measure (fun _ => True) (fun _ _ => True)
    (fun query _ _ => ⟨(step query).mono fun _ smaller => ⟨trivial, smaller⟩, trivial⟩)
    (trivial : (fun _ => True) query)
  exact ⟨hreturns, fun other calls => (hsmaller other calls).2⟩

end CallTree

end Syntagm
