import Syntagm.Parse.Source

/-!
# Repairs and the stream they make

Errors are repaired by leaving tokens out and by putting tokens in.  The text is not changed:
repairs are laid over the source, and what results is the stream of tokens that the engine
runs on (`Source.stream`).

**Nothing is lost.**  What is left out goes, in an error node, in front of the token that
follows, with the trivia there.  What is put in takes no bytes and stands in a node of its
own, behind whatever waits in front of the token it comes before.  The stream ends with the
end of the input, which also carries what is left in front of it.

Two tokens at the same place of two streams are told apart by what stands in front of them
(`Lead`), so a common beginning of two streams is one that the engine cannot tell apart.
-/

namespace Syntagm

/-- A change to the significant tokens. -/
inductive Repair where
  /-- The tokens from `start` up to `stop` are left out. -/
  | skip (start stop : Nat)
  /-- A token of this kind is put in front of the token `site`. -/
  | insert (site : Nat) (kind : Kind)
  deriving DecidableEq, Repr, Inhabited

namespace Repair

/-- The place where a repair starts. -/
def site : Repair → Nat
  | .skip start _ => start
  | .insert site _ => site

/-- Adds repairs to others, in the order of their places and else behind them. -/
def add (repairs more : List Repair) : List Repair :=
  (repairs ++ more).mergeSort fun first second => first.site ≤ second.site

end Repair

/-- What stands in front of a token of a stream. -/
inductive Lead where
  /-- The trivia in front of a significant token. -/
  | trivia (index : Nat)
  /-- Significant tokens that are left out. -/
  | skipped (start stop : Nat)
  deriving DecidableEq, Repr, Inhabited

/-- A token of a stream. -/
structure StreamToken where
  kind : Kind
  /-- The significant token it is, or is put in front of. -/
  site : Nat
  /-- Whether the token is in the text. -/
  isReal : Bool
  lead : List Lead
  /-- The elements in front of the token. -/
  leading : List Element
  /-- The token itself; the end of the input is none. -/
  element : Option Element
  deriving DecidableEq, Repr, Inhabited

namespace StreamToken

/-- Whether a repair made the token or left out something in front of it. -/
def isRepaired (token : StreamToken) : Bool :=
  !token.isReal || token.lead.any fun lead =>
    match lead with
    | .trivia _ => false
    | .skipped .. => true

/-- Whether two tokens, and what stands in front of them, are the same. -/
def sameAs (first second : StreamToken) : Bool :=
  first.kind == second.kind && first.site == second.site && first.isReal == second.isReal &&
    first.lead == second.lead

end StreamToken

namespace Source

variable (source : Source)

/-- What stands in front of a token, as elements. -/
def leading (lead : List Lead) : List Element :=
  lead.flatMap fun item =>
    match item with
    | .trivia index => source.trivia index
    | .skipped start stop => [source.errorNode start (stop - start)]

/-- The node for a token that the text lacks. -/
def missingNode (kind : Kind) : Element := .node Kind.missing [.token kind []]

/-- A significant token, or the end of the input, as a token of a stream. -/
def realToken (index : Nat) (pending : List Lead) : StreamToken :=
  let lead := pending ++ [.trivia index]
  ⟨source.kind index, index, true, lead, source.leading lead, source.element? index⟩

/-- A token that is put in, as a token of a stream. -/
def insertedToken (site : Nat) (kind : Kind) (pending : List Lead) : StreamToken :=
  ⟨kind, site, false, pending, source.leading pending, some (missingNode kind)⟩

/-- The stream from the significant token `index` on.  Before it comes what is `pending`;
`repairs` are those that have not been looked at.  A repair at a place that an earlier one
left out is dropped. -/
def streamFrom (index : Nat) (pending : List Lead) (repairs : List Repair) :
    List StreamToken :=
  if source.size < index then []
  else
    match repairs with
    | .insert site kind :: rest =>
      if index < site then
        source.realToken index pending :: streamFrom (index + 1) [] (.insert site kind :: rest)
      else if site < index then streamFrom index pending rest
      else source.insertedToken site kind pending :: streamFrom index [] rest
    | .skip start stop :: rest =>
      if index < start then
        source.realToken index pending :: streamFrom (index + 1) [] (.skip start stop :: rest)
      else if start = index ∧ index < stop ∧ index < source.size then
        let stop := min stop source.size
        streamFrom stop (pending ++ [.trivia index, .skipped index stop]) rest
      else streamFrom index pending rest
    | [] => source.realToken index pending :: streamFrom (index + 1) [] []
termination_by (source.size + 1 - index) + repairs.length
decreasing_by all_goals simp only [List.length_cons, List.length_nil] at *; omega

/-- The stream that repairs, in the order of their places, make of a source. -/
def stream (repairs : List Repair) : Array StreamToken :=
  (source.streamFrom 0 [] repairs).toArray

end Source

/-- The number of tokens that two streams have in common at their beginning. -/
def commonLength (first second : Array StreamToken) : Nat :=
  ((first.toList.zip second.toList).takeWhile fun (x, y) => x.sameAs y).length

end Syntagm
