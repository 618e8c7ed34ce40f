import Syntagm.Proofs.Tiling
import Syntagm.Proofs.Stream

/-!
# What the places of a text look like

The engine sees the significant tokens of a text one after the other, each with the trivia in
front of it, and then the end of the input.  What it sees at these places depends on the kinds
and texts of the tokens alone, not on where they are (`Look.views`).

So texts whose first tokens look the same look the same at the places of these.  Texts whose last
tokens look the same look the same at the places of these as well, but the first of them: the
trivia in front of that may begin with other tokens, unless a significant token ends right where
these tokens begin.
-/

namespace Syntagm

/-- What the parser sees of a token of a text. -/
structure Look where
  kind : Kind
  isExtra : Bool
  text : List Char

namespace Look

/-- What a token with this text looks like. -/
def ofToken (piece : Token × List Char) : Look := ⟨piece.1.kind, piece.1.isExtra, piece.2⟩

def element (look : Look) : Element := .token look.kind look.text

/-- How many of some tokens are significant. -/
def significant (looks : List Look) : Nat := looks.countP (!·.isExtra)

@[simp] theorem significant_cons (first : Look) (rest : List Look) :
    significant (first :: rest) = significant rest + if first.isExtra then 0 else 1 := by
  rw [significant, List.countP_cons]
  cases first.isExtra <;> rfl

@[simp] theorem significant_append (first second : List Look) :
    significant (first ++ second) = significant first + significant second :=
  List.countP_append

/-- What the engine sees at the places of tokens and at the end of the input; `trivia` is what
stands in front of the first token. -/
def views (trivia : List Element) : List Look → List (Kind × List Element × Option Element)
  | [] => [(Kind.endOfInput, trivia, none)]
  | first :: rest =>
    if first.isExtra then views (trivia ++ [first.element]) rest
    else (first.kind, trivia, some first.element) :: views [] rest

@[simp] theorem length_views (trivia : List Element) (looks : List Look) :
    (views trivia looks).length = significant looks + 1 := by
  induction looks generalizing trivia with
  | nil => rfl
  | cons first rest ih =>
    rw [views, significant_cons]
    by_cases hextra : first.isExtra
    · simpa [hextra] using ih _
    · simpa [hextra] using ih _

/-- **What stands in front of the first token** is seen at the first place alone. -/
theorem tail_views (trivia others : List Element) (looks : List Look) :
    (views trivia looks).tail = (views others looks).tail := by
  induction looks generalizing trivia others with
  | nil => rfl
  | cons first rest ih =>
    rw [views, views]
    split
    · exact ih _ _
    · rfl

/-- Whether a place starts behind some tokens: no trivia stands at their end. -/
def startsPlace (looks : List Look) : Bool := (looks.getLast?).all (!·.isExtra)

/-- **First tokens and last tokens.**  The places of the first ones come first.  What stands in
front of the last ones is nothing if a place starts there. -/
theorem views_append (front : List Look) :
    ∃ first pending, first.length = significant front ∧
      (startsPlace front = true → pending = []) ∧
      ∀ back, views [] (front ++ back) = first ++ views pending back := by
  induction front using List.reverseRecOn with
  | nil => exact ⟨[], [], rfl, fun _ => rfl, fun _ => rfl⟩
  -- the last token waits in front of what follows, or ends a place with all that waits
  | append_singleton front last ih =>
    obtain ⟨first, pending, hlength, -, hviews⟩ := ih
    cases hextra : last.isExtra with
    | true =>
      refine ⟨first, pending ++ [last.element], ?_, ?_, fun back => ?_⟩
      · simp [hextra, hlength, significant]
      · simp [startsPlace, hextra]
      · rw [List.append_assoc, hviews, List.singleton_append, views, if_pos hextra]
    | false =>
      refine ⟨first ++ [(last.kind, pending, some last.element)], [], ?_, fun _ => rfl,
        fun back => ?_⟩
      · simp [hextra, hlength, significant]
      · rw [List.append_assoc, hviews, List.singleton_append, views, if_neg (by simp [hextra]),
          List.append_assoc, List.singleton_append]

/-- Texts whose first tokens look the same look the same at the places of these. -/
theorem getElem?_views_front (front : List Look) (back others : List Look) {index : Nat}
    (lt : index < significant front) :
    (views [] (front ++ back))[index]? = (views [] (front ++ others))[index]? := by
  obtain ⟨first, pending, hlength, -, hviews⟩ := views_append front
  rw [hviews, hviews, List.getElem?_append_left (by omega), List.getElem?_append_left (by omega)]

/-- How many places, at the end, do not change if what stands before some tokens does. -/
def placesOf (front back : List Look) : Nat :=
  significant back + if startsPlace front then 1 else 0

/-- **Texts whose last tokens look the same** look the same from the first place on that is
behind all others, and end at the same place. -/
theorem getElem?_views_back (front others back : List Look) (index : Nat) :
    (views [] (front ++ back))[significant (front ++ back) + 1 -
        min (placesOf front back) (placesOf others back) + index]? =
      (views [] (others ++ back))[significant (others ++ back) + 1 -
        min (placesOf front back) (placesOf others back) + index]? := by
  obtain ⟨first, pending, hlength, hstarts, hviews⟩ := views_append front
  obtain ⟨first', pending', hlength', hstarts', hviews'⟩ := views_append others
  rw [hviews, hviews', significant_append, significant_append]
  by_cases hboth : startsPlace front = true ∧ startsPlace others = true
  · -- a place starts behind both, so nothing stands in front of what follows
    obtain ⟨hfront, hothers⟩ := hboth
    simp only [placesOf, hfront, hothers, if_true, Nat.min_self, hstarts hfront, hstarts' hothers]
    rw [List.getElem?_append_right (by omega), List.getElem?_append_right (by omega)]
    congr 1
    omega
  · -- trivia may stand in front of the first place, which is not counted then
    have hplaces : min (placesOf front back) (placesOf others back) = significant back := by
      rcases not_and_or.mp hboth with hfront | hothers
      · rw [placesOf, if_neg hfront]
        exact Nat.min_eq_left (Nat.le_add_right ..)
      · rw [placesOf, placesOf, if_neg hothers]
        exact Nat.min_eq_right (Nat.le_add_right ..)
    rw [hplaces, List.getElem?_append_right (by omega), List.getElem?_append_right (by omega)]
    have hone : significant front + significant back + 1 - significant back + index -
        first.length = index + 1 := by omega
    have htwo : significant others + significant back + 1 - significant back + index -
        first'.length = index + 1 := by omega
    rw [hone, htwo, ← List.getElem?_tail, ← List.getElem?_tail, tail_views]

end Look

/-- What the tokens of a text look like. -/
def Tokens.looks (tokens : Tokens) (text : List Char) : List Look :=
  (tokens.list.zip (Tokens.cut text tokens.list)).map Look.ofToken

/-! ### Sources -/

namespace Source

/-- What the significant tokens of a text look like. -/
theorem views_collect (trivia : List Element) (pieces : List (Token × List Char)) :
    Look.views trivia (pieces.map Look.ofToken) =
      (collect trivia pieces).1.map (fun token => (token.kind, token.trivia, some token.element)) ++
        [(Kind.endOfInput, (collect trivia pieces).2, none)] := by
  induction pieces generalizing trivia with
  | nil => rfl
  | cons first rest ih =>
    obtain ⟨token, text⟩ := first
    rw [List.map_cons, Look.views, collect]
    by_cases hextra : token.isExtra
    · simp only [Look.ofToken, hextra, if_true]
      exact ih _
    · simp only [Look.ofToken, hextra, if_false, Bool.false_eq_true]
      rw [ih]
      rfl

/-- A place of a source, as the engine sees it. -/
theorem view_realToken (source : Source) (index : Nat) :
    (source.realToken index []).view =
      (source.kind index, source.trivia index, source.element? index) := by
  simp [StreamToken.view, realToken, leading]

/-- **The stream of a text without repairs** shows the places of the text. -/
theorem view_stream_nil (text : List Char) (tokens : Tokens) (index : Nat) :
    (((ofTokens text tokens).stream [])[index]?).map StreamToken.view =
      (Look.views [] (tokens.looks text))[index]? := by
  rw [Tokens.looks, views_collect]
  set source := ofTokens text tokens with hsource
  have hsize : (collect [] (tokens.list.zip (Tokens.cut text tokens.list))).1.length =
      source.size := by
    simp [hsource, size, ofTokens]
  have htokens (place : Nat) :
      (collect [] (tokens.list.zip (Tokens.cut text tokens.list))).1[place]? =
        source.tokens[place]? := by
    simp [hsource, ofTokens]
  rcases Nat.lt_trichotomy index source.size with hlt | rfl | hgt
  · rw [getElem?_stream_nil (Nat.le_of_lt hlt),
      List.getElem?_append_left (by simpa [hsize] using hlt), List.getElem?_map, htokens,
      Option.map_some, view_realToken]
    have htoken := Array.getElem?_eq_getElem hlt
    simp [kind, trivia, element?, htoken]
  · rw [getElem?_stream_nil (Nat.le_refl _), List.getElem?_append_right (by simp [hsize]),
      Option.map_some, view_realToken]
    have hnone : source.tokens[source.size]? = none := Array.getElem?_eq_none (Nat.le_refl _)
    simp [hsize, kind, trivia, element?, hnone]
    rfl
  · rw [Array.getElem?_eq_none (by rw [size_stream_nil]; omega),
      List.getElem?_eq_none (by simp [hsize]; omega)]
    rfl

end Source

end Syntagm
