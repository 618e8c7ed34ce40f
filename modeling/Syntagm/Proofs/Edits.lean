import Syntagm.Parse.Reparse
import Syntagm.Proofs.Places

/-!
# What an edit leaves unchanged

An edit keeps the text in front of it, and moves the text behind it (`Edit.Makes`).  So tokens
of the old and the new text that agree in kind and range, in front of the edit or behind it,
have the same text (`Edit.Keeps`), and look the same to the parser.

The new text is not always what the offsets of an edit say.  If an end of the replaced range is
inside a character, the beginning of the new text is the whole old one, or its end is missing.  This
is no danger mostly: then the lengths of the two texts do not go with the edit.  The exception is an
empty range: the new text is the old one with the replacement behind it, and its length is right
(`Edit.cases_of_fits`).

The tokens that are found to agree at both ends of the two texts are of this form.  The streams
of the two texts are therefore the same up to the last place of the first kind
(`Edit.sameStretch_before`) and from the first place of the second kind on
(`Edit.sameStretch_behind`).
-/

namespace Syntagm

/-! ### Parts of texts -/

namespace Text

/-- Texts that begin in the same way have the same parts there. -/
theorem slice?_front {head tail other part part' : List Char} {range : Range}
    (h : slice? (head ++ tail) range = some part) (h' : slice? (head ++ other) range = some part')
    (inside : range.stop ≤ byteLength head) : part = part' := by
  obtain ⟨front, back, htext, rfl⟩ := slice?_eq_some.mp h
  have hle : byteLength (front ++ part) ≤ byteLength head := by
    rw [byteLength_append]
    exact inside
  rw [← List.append_assoc] at htext
  obtain ⟨middle, rfl, -⟩ := exists_of_append_eq htext.symm hle
  rw [List.append_assoc, List.append_assoc, slice?_append] at h'
  exact Option.some.inj h'

/-- Texts that end in the same way have the same parts there. -/
theorem slice?_back {head head' tail part part' : List Char} {range range' : Range}
    (h : slice? (head ++ tail) range = some part)
    (h' : slice? (head' ++ tail) range' = some part')
    (inside : byteLength head ≤ range.start)
    (moved : range'.start + byteLength head = range.start + byteLength head')
    (lengths : range.length = range'.length) : part = part' := by
  obtain ⟨front, back, htext, rfl⟩ := slice?_eq_some.mp h
  obtain ⟨front', back', -, hrange'⟩ := slice?_eq_some.mp h'
  obtain ⟨middle, rfl, rfl⟩ := exists_of_append_eq htext inside
  have hsame : range' =
      Range.ofLength (byteLength (head' ++ middle)) (byteLength part) := by
    rw [hrange'] at lengths moved ⊢
    simp only [Range.ofLength, Range.length, byteLength_append, Nat.add_sub_cancel_left] at *
    rw [← lengths, show byteLength front' = byteLength head' + byteLength middle by omega]
  rw [hsame, ← List.append_assoc, slice?_append] at h'
  exact Option.some.inj h'

end Text

/-! ### Edits -/

namespace Edit

/-- **What an edit makes of a text**: up to its start, and from its ends on, the old and the new
text are the same. -/
structure Makes (edit : Edit) (oldText newText : List Char) : Prop where
  before : ∃ front oldRest newRest, oldText = front ++ oldRest ∧ newText = front ++ newRest ∧
    Text.byteLength front = edit.start
  behind : ∃ oldFront newFront back, oldText = oldFront ++ back ∧ newText = newFront ++ back ∧
    Text.byteLength oldFront = edit.oldEnd ∧ Text.byteLength newFront = edit.newEnd

/-- An offset at which a text can be cut. -/
theorem exists_of_isBoundary {text : List Char} {offset : Nat}
    (h : Text.isBoundary text offset = true) :
    ∃ front back, text = front ++ back ∧ Text.byteLength front = offset ∧
      beginning text offset = front ∧ ending text offset = back := by
  obtain ⟨⟨front, back⟩, hsplit⟩ := Option.isSome_iff_exists.mp h
  obtain ⟨htext, hlength⟩ := Text.of_splitBytes? hsplit
  exact ⟨front, back, htext, hlength, by simp [beginning, hsplit], by simp [ending, hsplit]⟩

/-- Replacing a range whose ends are boundaries. -/
theorem makes_replacing {oldText : List Char} {range : Text.Range}
    (starts : Text.isBoundary oldText range.start = true)
    (stops : Text.isBoundary oldText range.stop = true) (replacement : List Char) :
    (replacing oldText range replacement).Makes oldText
      ((replacing oldText range replacement).apply oldText replacement) := by
  obtain ⟨front, rest, htext, hstart, hbeginning, -⟩ := exists_of_isBoundary starts
  obtain ⟨oldFront, back, htext', hstop, -, hending⟩ := exists_of_isBoundary stops
  have hlength := congrArg Text.byteLength htext
  have hlength' := congrArg Text.byteLength htext'
  rw [Text.byteLength_append, hstart] at hlength
  rw [Text.byteLength_append, hstop] at hlength'
  have hmin : min range.start (Text.byteLength oldText) = range.start :=
    Nat.min_eq_left (by omega)
  have hmin' : min range.stop (Text.byteLength oldText) = range.stop :=
    Nat.min_eq_left (by omega)
  have hnew : (replacing oldText range replacement).apply oldText replacement =
      front ++ replacement ++ back := by
    simp only [apply, replacing, hmin, hmin', hbeginning, hending]
  rw [hnew]
  refine ⟨⟨front, rest, replacement ++ back, htext, List.append_assoc .., ?_⟩,
    ⟨oldFront, front ++ replacement, back, htext', rfl, ?_, ?_⟩⟩
  · simp only [replacing, hmin, hstart]
  · simp only [replacing, hmin', hstop]
  · simp only [replacing, hmin, Text.byteLength_append, hstart]

variable {edit : Edit} {oldText newText : List Char}

/-- **An edit keeps the text of tokens** that agree in front of it or behind it. -/
structure Keeps (edit : Edit) (oldText newText : List Char) : Prop where
  before : ∀ {old new : Token} {part part' : List Char}, edit.agreesBefore old new = true →
    Text.slice? oldText old.range = some part → Text.slice? newText new.range = some part' →
      part = part'
  behind : ∀ {old new : Token} {part part' : List Char}, edit.agreesBehind old new = true →
    Text.slice? oldText old.range = some part → Text.slice? newText new.range = some part' →
      part = part'

/-- What an edit does not touch has the text it had. -/
theorem Makes.keeps (makes : edit.Makes oldText newText) : edit.Keeps oldText newText := by
  constructor
  · intro old new part part' agrees hold hnew
    simp only [agreesBefore, Bool.and_eq_true, decide_eq_true_eq, beq_iff_eq] at agrees
    obtain ⟨⟨⟨hstop, hrange⟩, -⟩, -⟩ := agrees
    obtain ⟨front, oldRest, newRest, rfl, rfl, hfront⟩ := makes.before
    rw [← hrange] at hnew
    exact Text.slice?_front hold hnew (by omega)
  · intro old new part part' agrees hold hnew
    simp only [agreesBehind, Bool.and_eq_true, decide_eq_true_eq, beq_iff_eq] at agrees
    obtain ⟨⟨⟨⟨⟨hstart, hstart'⟩, hdelta⟩, hlength⟩, -⟩, -⟩ := agrees
    obtain ⟨oldFront, newFront, back, rfl, rfl, hold', hnew'⟩ := makes.behind
    -- the token moved with the text behind the edit
    have hmoved : new.range.start + Text.byteLength oldFront =
        old.range.start + Text.byteLength newFront := by
      rw [delta] at hdelta
      omega
    exact Text.slice?_back hold hnew (by omega) hmoved hlength

/-- An edit that does not change the text moves no token. -/
theorem keeps_of_delta (still : edit.delta = 0) (text : List Char) : edit.Keeps text text := by
  constructor
  · intro old new part part' agrees hold hnew
    simp only [agreesBefore, Bool.and_eq_true, decide_eq_true_eq, beq_iff_eq] at agrees
    rw [agrees.1.1.2] at hold
    exact Option.some.inj (hold.symm.trans hnew)
  · intro old new part part' agrees hold hnew
    simp only [agreesBehind, Bool.and_eq_true, decide_eq_true_eq, beq_iff_eq, still] at agrees
    obtain ⟨⟨⟨⟨-, hmoved⟩, hlength⟩, -⟩, -⟩ := agrees
    obtain ⟨front, back, htext, hrange⟩ := Text.slice?_eq_some.mp hold
    obtain ⟨front', back', htext', hrange'⟩ := Text.slice?_eq_some.mp hnew
    have hsame : old.range = new.range := by
      rw [hrange, hrange'] at hlength hmoved ⊢
      simp only [Text.Range.ofLength, Text.Range.length] at hlength hmoved ⊢
      rw [show Text.byteLength front = Text.byteLength front' by omega,
        show Text.byteLength part = Text.byteLength part' by omega]
    rw [hsame] at hold
    exact Option.some.inj (hold.symm.trans hnew)

theorem kind_of_agreesBefore {old new : Token} (agrees : edit.agreesBefore old new = true) :
    old.kind = new.kind := by
  simp only [agreesBefore, Bool.and_eq_true, beq_iff_eq] at agrees
  exact agrees.1.2

theorem kind_of_agreesBehind {old new : Token} (agrees : edit.agreesBehind old new = true) :
    old.kind = new.kind := by
  simp only [agreesBehind, Bool.and_eq_true, beq_iff_eq] at agrees
  exact agrees.1.2

end Edit

/-! ### Offsets at which a text can be cut -/

namespace Text

theorem isBoundary_byteLength (text : List Char) : isBoundary text (byteLength text) = true := by
  have h := isBoundary_append text []
  rwa [List.append_nil] at h

end Text

namespace Edit

variable {text : List Char} {offset : Nat}

theorem byteLength_beginning :
    Text.byteLength (beginning text offset) =
      if Text.isBoundary text offset then offset else Text.byteLength text := by
  split
  · rename_i hcut
    obtain ⟨front, back, -, hfront, hbeginning, -⟩ := exists_of_isBoundary hcut
    rw [hbeginning, hfront]
  · rename_i hinside
    rw [beginning, Option.not_isSome_iff_eq_none.mp hinside]
    rfl

theorem byteLength_ending :
    Text.byteLength (ending text offset) =
      if Text.isBoundary text offset then Text.byteLength text - offset else 0 := by
  split
  · rename_i hcut
    obtain ⟨front, back, htext, hfront, -, hending⟩ := exists_of_isBoundary hcut
    rw [hending, htext, Text.byteLength_append, hfront]
    omega
  · rename_i hinside
    rw [ending, Option.not_isSome_iff_eq_none.mp hinside]
    rfl

/-- **An edit puts text inside a character**: its range is empty and at no boundary. -/
def IsInside (edit : Edit) (oldText : List Char) : Prop :=
  edit.start = edit.oldEnd ∧ Text.isBoundary oldText edit.start = false

instance (edit : Edit) (oldText : List Char) : Decidable (edit.IsInside oldText) :=
  inferInstanceAs (Decidable (_ ∧ _))

variable {oldText replacement : List Char} {range : Text.Range}

/-- **The lengths of the texts give an edit away** that cuts inside a character, unless it removes
nothing. -/
theorem cases_of_fits
    (fits : (replacing oldText range replacement).fits (Text.byteLength oldText)
      (Text.byteLength ((replacing oldText range replacement).apply oldText replacement)) = true) :
    (Text.isBoundary oldText (min range.start (Text.byteLength oldText)) = true ∧
      Text.isBoundary oldText (min range.stop (Text.byteLength oldText)) = true) ∨
      (replacing oldText range replacement).IsInside oldText := by
  have hend := Text.isBoundary_byteLength oldText
  simp only [Edit.fits, replacing, apply, IsInside, Bool.and_eq_true, beq_iff_eq,
    Text.byteLength_append, byteLength_beginning, byteLength_ending] at fits ⊢
  obtain ⟨⟨⟨hstart, -⟩, hstop⟩, hlengths⟩ := fits
  have hstart := of_decide_eq_true hstart
  have hstop := of_decide_eq_true hstop
  by_cases hfront : Text.isBoundary oldText (min range.start (Text.byteLength oldText)) = true
  · left
    refine ⟨hfront, ?_⟩
    by_contra hback
    -- the end of the text is missing from the new one, so nothing was behind the range
    rw [if_pos hfront, if_neg hback] at hlengths
    have hlast : min range.stop (Text.byteLength oldText) = Text.byteLength oldText := by omega
    rw [hlast] at hback
    exact hback hend
  · right
    rw [if_neg hfront] at hlengths
    exact ⟨by omega, Bool.eq_false_iff.mpr hfront⟩

/-- Offsets past the end of the text count as its end. -/
theorem replacing_clamped (oldText : List Char) (range : Text.Range) (replacement : List Char) :
    replacing oldText
      ⟨min range.start (Text.byteLength oldText), min range.stop (Text.byteLength oldText)⟩
        replacement = replacing oldText range replacement := by
  simp only [replacing, Nat.min_assoc, Nat.min_self]

/-- **What fits keeps the text of tokens**, unless it puts something inside a character. -/
theorem keeps_of_fits
    (fits : (replacing oldText range replacement).fits (Text.byteLength oldText)
      (Text.byteLength ((replacing oldText range replacement).apply oldText replacement)) = true)
    (apart : (replacing oldText range replacement).IsInside oldText → replacement = []) :
    (replacing oldText range replacement).Keeps oldText
      ((replacing oldText range replacement).apply oldText replacement) := by
  rcases cases_of_fits fits with ⟨starts, stops⟩ | inside
  · rw [← replacing_clamped]
    exact (makes_replacing starts stops replacement).keeps
  · -- nothing is put inside the character, so the text stays what it was
    obtain rfl := apart inside
    have hstart := inside.1
    have hsame : (replacing oldText range []).apply oldText [] = oldText := by
      have hcut := Option.not_isSome_iff_eq_none.mp (Bool.eq_false_iff.mp inside.2)
      rw [apply, ← hstart, beginning, ending, hcut]
      simp
    rw [hsame]
    refine keeps_of_delta ?_ oldText
    rw [delta, ← hstart]
    simp [replacing]

end Edit

/-! ### Tokens -/

namespace CompiledGrammar

variable {compiled : CompiledGrammar} (owned : compiled.lexicon.Owned compiled.kinds)

theorem length_looks (compiled : CompiledGrammar) (text : List Char) :
    ((compiled.tokenize text).looks text).length = (compiled.tokenize text).list.length := by
  obtain ⟨parts, hparts⟩ := compiled.tiles_tokensFrom 0 .origin text
  have hlength := hparts.length_eq
  simp only [Tokens.looks, tokenize, hparts.cut, List.length_map, List.length_zip, hlength,
    Nat.min_self]

/-- Which tokens of a text are trivia. -/
theorem map_isExtra_looks (compiled : CompiledGrammar) (text : List Char) :
    ((compiled.tokenize text).looks text).map (·.isExtra) =
      (compiled.tokenize text).list.map (·.isExtra) := by
  obtain ⟨parts, hparts⟩ := compiled.tiles_tokensFrom 0 .origin text
  have hlength := hparts.length_eq
  have hzip := @List.map_fst_zip _ _ (compiled.tokenize text).list parts (Nat.le_of_eq hlength.symm)
  have hextra := congrArg (List.map (·.isExtra)) hzip
  rw [List.map_map] at hextra
  simp only [Tokens.looks, tokenize, hparts.cut, List.map_map]
  exact hextra

theorem significant_take_looks (compiled : CompiledGrammar) (text : List Char) (count : Nat) :
    Look.significant (((compiled.tokenize text).looks text).take count) =
      Tokens.significantBefore (compiled.tokenize text).list count := by
  have hmap := congrArg (fun extras => (extras.take count).countP (!·))
    (compiled.map_isExtra_looks text)
  simp only [← List.map_take, List.countP_map] at hmap
  exact hmap

theorem significant_looks (compiled : CompiledGrammar) (text : List Char) :
    Look.significant ((compiled.tokenize text).looks text) =
      Tokens.significantBefore (compiled.tokenize text).list
        (compiled.tokenize text).list.length := by
  rw [← significant_take_looks, ← length_looks, List.take_length]

/-- The places behind some tokens are those that do not depend on these tokens. -/
theorem placesOf_looks (compiled : CompiledGrammar) (text : List Char) (count : Nat) :
    Look.placesOf (((compiled.tokenize text).looks text).take count)
        (((compiled.tokenize text).looks text).drop count) =
      Tokens.placesBehind (compiled.tokenize text).list count := by
  have hmap := compiled.map_isExtra_looks text
  have hdrop := congrArg (fun extras => (extras.drop count).countP (!·)) hmap
  simp only [← List.map_drop, List.countP_map] at hdrop
  have hlast := congrArg (fun extras => ((extras.take count).getLast?).all (!·)) hmap
  simp only [← List.map_take, List.getLast?_map, Option.all_map] at hlast
  have hstarts : Look.startsPlace (((compiled.tokenize text).looks text).take count) =
      (((compiled.tokenize text).list.take count).getLast?).all (!·.isExtra) := hlast
  have hrest : Look.significant (((compiled.tokenize text).looks text).drop count) =
      Tokens.significantBefore ((compiled.tokenize text).list.drop count)
        ((compiled.tokenize text).list.length - count) := by
    rw [Tokens.significantBefore, ← List.length_drop, List.take_length]
    exact hdrop
  rw [Look.placesOf, Tokens.placesBehind, hrest, hstarts]
  cases ((compiled.tokenize text).list.take count).getLast? with
  | none => rfl
  | some token => cases h : token.isExtra <;> simp [h]

include owned

/-- **What a token of a text looks like.** -/
theorem look_of_token (text : List Char) {index : Nat} {token : Token}
    (found : (compiled.tokenize text).list[index]? = some token) :
    ∃ part, Text.slice? text token.range = some part ∧
      ((compiled.tokenize text).looks text)[index]? =
        some ⟨token.kind, compiled.isTrivia token.kind, part⟩ := by
  obtain ⟨parts, hparts⟩ := compiled.tiles_tokensFrom 0 .origin text
  have hextra := (compiled.kind_tokensFrom owned 0 .origin text token
    (List.mem_of_getElem? found)).2
  have hslices := congrArg (·[index]?) (hparts.slices [] rfl)
  simp only [List.getElem?_map, List.nil_append] at hslices
  have hslice : (parts[index]?).map some = some (Text.slice? text token.range) := by
    rw [hslices]
    exact congrArg (Option.map _) found
  obtain ⟨part, hpart, hsome⟩ := Option.map_eq_some_iff.mp hslice
  refine ⟨part, hsome.symm, ?_⟩
  rw [← hextra]
  simp only [Tokens.looks, tokenize, hparts.cut, List.getElem?_map]
  have hpiece : ((compiled.tokensFrom 0 .origin text).zip parts)[index]? = some (token, part) :=
    List.getElem?_zip_eq_some.mpr ⟨found, hpart⟩
  rw [hpiece]
  rfl

end CompiledGrammar

namespace Edit

variable {compiled : CompiledGrammar} (owned : compiled.lexicon.Owned compiled.kinds)
  {edit : Edit} {oldText newText : List Char} (keeps : edit.Keeps oldText newText)
include owned keeps

/-- The tokens that agree in front of an edit look the same. -/
theorem take_looks {before : Nat}
    (hbefore : before = edit.unchangedBefore (compiled.tokenize oldText).list
      (compiled.tokenize newText).list) :
    ((compiled.tokenize oldText).looks oldText).take before =
      ((compiled.tokenize newText).looks newText).take before := by
  refine List.ext_getElem? fun index => ?_
  by_cases hlt : index < before
  · have hagree := hlt
    rw [hbefore, unchangedBefore] at hagree
    obtain ⟨old, new, hold, hnew, hagrees⟩ := agree_of_lt_takeWhile_zip hagree
    obtain ⟨part, hpart, hlook⟩ := compiled.look_of_token owned oldText hold
    obtain ⟨part', hpart', hlook'⟩ := compiled.look_of_token owned newText hnew
    obtain rfl := keeps.before hagrees hpart hpart'
    rw [List.getElem?_take_of_lt hlt, List.getElem?_take_of_lt hlt, hlook, hlook',
      kind_of_agreesBefore hagrees]
  · rw [List.getElem?_take, List.getElem?_take, if_neg hlt, if_neg hlt]

omit owned keeps in
/-- The last tokens of two lists, as far as they are found to agree. -/
theorem agree_of_lt_unchangedBehind {old new : List Token} {before index : Nat}
    (lt : index < edit.unchangedBehind old new before) :
    index < old.length ∧ index < new.length ∧ ∃ one two,
      old[old.length - 1 - index]? = some one ∧ new[new.length - 1 - index]? = some two ∧
        edit.agreesBehind one two = true := by
  rw [unchangedBehind, List.zip, List.take_zipWith] at lt
  obtain ⟨one, two, hone, htwo, hagrees⟩ := agree_of_lt_takeWhile_zip lt
  rw [List.getElem?_take] at hone htwo
  split at hone
  · rw [if_pos ‹_›] at htwo
    have hlt := (List.getElem?_eq_some_iff.mp hone).1
    have hlt' := (List.getElem?_eq_some_iff.mp htwo).1
    rw [List.length_reverse] at hlt hlt'
    rw [List.getElem?_reverse hlt] at hone
    rw [List.getElem?_reverse hlt'] at htwo
    exact ⟨hlt, hlt', one, two, hone, htwo, hagrees⟩
  · cases hone

omit owned keeps in
theorem unchangedBehind_le (edit : Edit) (old new : List Token) (before : Nat) :
    edit.unchangedBehind old new before ≤ old.length ∧
      edit.unchangedBehind old new before ≤ new.length := by
  constructor
  · by_contra hlt
    exact Nat.lt_irrefl _ (agree_of_lt_unchangedBehind (Nat.not_le.mp hlt)).1
  · by_contra hlt
    exact Nat.lt_irrefl _ (agree_of_lt_unchangedBehind (Nat.not_le.mp hlt)).2.1

/-- The tokens that agree behind an edit look the same. -/
theorem drop_looks (before : Nat) {behind : Nat}
    (hbehind : behind = edit.unchangedBehind (compiled.tokenize oldText).list
      (compiled.tokenize newText).list before) :
    ((compiled.tokenize oldText).looks oldText).drop
        ((compiled.tokenize oldText).list.length - behind) =
      ((compiled.tokenize newText).looks newText).drop
        ((compiled.tokenize newText).list.length - behind) := by
  obtain ⟨hle, hle'⟩ := edit.unchangedBehind_le (compiled.tokenize oldText).list
    (compiled.tokenize newText).list before
  rw [← hbehind] at hle hle'
  refine List.ext_getElem? fun index => ?_
  rw [List.getElem?_drop, List.getElem?_drop]
  by_cases hlt : index < behind
  · -- this is the token with `behind - 1 - index` tokens after it
    have hback : behind - 1 - index < edit.unchangedBehind (compiled.tokenize oldText).list
        (compiled.tokenize newText).list before := by
      rw [← hbehind]
      omega
    obtain ⟨-, -, old, new, hold, hnew, hagrees⟩ := agree_of_lt_unchangedBehind hback
    rw [show (compiled.tokenize oldText).list.length - 1 - (behind - 1 - index) =
      (compiled.tokenize oldText).list.length - behind + index by omega] at hold
    rw [show (compiled.tokenize newText).list.length - 1 - (behind - 1 - index) =
      (compiled.tokenize newText).list.length - behind + index by omega] at hnew
    obtain ⟨part, hpart, hlook⟩ := compiled.look_of_token owned oldText hold
    obtain ⟨part', hpart', hlook'⟩ := compiled.look_of_token owned newText hnew
    obtain rfl := keeps.behind hagrees hpart hpart'
    rw [hlook, hlook', kind_of_agreesBehind hagrees]
  · rw [List.getElem?_eq_none (by rw [compiled.length_looks]; omega),
      List.getElem?_eq_none (by rw [compiled.length_looks]; omega)]

/-- **In front of an edit** the streams of the two texts are the same. -/
theorem sameStretch_before {before : Nat}
    (hbefore : before = edit.unchangedBefore (compiled.tokenize oldText).list
      (compiled.tokenize newText).list) :
    SameStretch ((Source.ofTokens oldText (compiled.tokenize oldText)).stream [])
      ((Source.ofTokens newText (compiled.tokenize newText)).stream []) 0 0
      (Tokens.significantBefore (compiled.tokenize oldText).list before) := by
  intro index hlt
  rw [← compiled.significant_take_looks] at hlt
  rw [Source.view_stream_nil, Source.view_stream_nil, Nat.zero_add,
    ← List.take_append_drop before ((compiled.tokenize oldText).looks oldText),
    Look.getElem?_views_front _ _ (((compiled.tokenize newText).looks newText).drop before) hlt,
    take_looks owned keeps hbefore, List.take_append_drop]

/-- **Behind an edit** the streams of the two texts are the same, up to their ends. -/
theorem sameStretch_behind (before : Nat) {behind places : Nat}
    (hbehind : behind = edit.unchangedBehind (compiled.tokenize oldText).list
      (compiled.tokenize newText).list before)
    (hplaces : places = min
      (Tokens.placesBehind (compiled.tokenize oldText).list
        ((compiled.tokenize oldText).list.length - behind))
      (Tokens.placesBehind (compiled.tokenize newText).list
        ((compiled.tokenize newText).list.length - behind))) (count : Nat) :
    SameStretch ((Source.ofTokens oldText (compiled.tokenize oldText)).stream [])
      ((Source.ofTokens newText (compiled.tokenize newText)).stream [])
      (Tokens.significantBefore (compiled.tokenize oldText).list
        (compiled.tokenize oldText).list.length + 1 - places)
      (Tokens.significantBefore (compiled.tokenize newText).list
        (compiled.tokenize newText).list.length + 1 - places) count := by
  intro index _
  have hdrop := drop_looks owned keeps before hbehind
  have hviews := Look.getElem?_views_back
    (((compiled.tokenize oldText).looks oldText).take
      ((compiled.tokenize oldText).list.length - behind))
    (((compiled.tokenize newText).looks newText).take
      ((compiled.tokenize newText).list.length - behind))
    (((compiled.tokenize oldText).looks oldText).drop
      ((compiled.tokenize oldText).list.length - behind)) index
  rw [compiled.placesOf_looks, List.take_append_drop, hdrop, compiled.placesOf_looks,
    List.take_append_drop, compiled.significant_looks, compiled.significant_looks,
    ← hplaces] at hviews
  rw [Source.view_stream_nil, Source.view_stream_nil]
  exact hviews

end Edit

end Syntagm
