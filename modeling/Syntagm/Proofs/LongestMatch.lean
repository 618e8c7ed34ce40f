import Syntagm.Proofs.Scanning
import Syntagm.Proofs.Terminals
import Syntagm.Proofs.WordPattern

/-!
# Lexing finds the longest match of all terminals

What the longest match should be is said without keywords: all terminals are run, literals that are
keywords like any others; of what they match the longest counts, of equally long matches a literal,
and of these the first (`CompiledGrammar.longestOfAll?`).  Lexing does not run keywords.  It looks
what the word terminal takes up among them, and compares each candidate with the best one so far.

Both find the same (`CompiledGrammar.longestMatch?_eq`):

* the better one of two candidates is the one of greater rank, so the best one so far is the first
  one of greatest rank (`IsBest`), and so is what should be found;
* what lexing tries is what some terminal matches, and in place of a keyword this is what the word
  terminal takes (`CompiledGrammar.of_candidate?_eq_some`);
* a literal that is as long as a keyword that matches there is that keyword, as no two literals have
  the same text (`Lexicon.Distinct`).  So it does not matter that the word terminal stands
  elsewhere than the keyword.

**What is assumed.**  The pattern of the word terminal persists (`Pattern.Persists`), and no
terminal that is a rule has the text of a keyword (`Lexicon.KeywordsUnnamed`).
-/

namespace Syntagm

/-! ### The first one of greatest rank -/

section Best
variable {α : Type}

/-- **The first element of greatest rank** in a list. -/
def IsBest (rank : α → Nat) (elements : List α) (best : α) : Prop :=
  ∃ front back, elements = front ++ best :: back ∧ (∀ other ∈ front, rank other < rank best) ∧
    ∀ other ∈ back, rank other ≤ rank best

namespace IsBest

variable {rank : α → Nat} {elements : List α} {best other : α}

theorem mem (h : IsBest rank elements best) : best ∈ elements := by
  obtain ⟨front, back, rfl, -⟩ := h
  simp

theorem le (h : IsBest rank elements best) : ∀ other ∈ elements, rank other ≤ rank best := by
  obtain ⟨front, back, rfl, hfront, hback⟩ := h
  exact List.forall_mem_append.mpr ⟨fun other hmem => Nat.le_of_lt (hfront other hmem),
    List.forall_mem_cons.mpr ⟨Nat.le_refl _, hback⟩⟩

/-- There is only one. -/
theorem unique (h : IsBest rank elements best) (h' : IsBest rank elements other) :
    best = other := by
  have hle := h.le other h'.mem
  have hle' := h'.le best h.mem
  obtain ⟨front, back, rfl, hfront, -⟩ := h
  obtain ⟨front', back', heq, hfront', -⟩ := h'
  rcases List.append_eq_append_iff.mp heq with ⟨middle, hmiddle, hrest⟩ | ⟨middle, hmiddle, hrest⟩
  · cases middle with
    | nil => exact (List.cons.inj hrest).1
    | cons first middle =>
      obtain rfl := (List.cons.inj hrest).1
      have hlt := hfront' best (by simp [hmiddle])
      omega
  · cases middle with
    | nil => exact (List.cons.inj hrest).1.symm
    | cons first middle =>
      obtain rfl := (List.cons.inj hrest).1
      have hlt := hfront other (by simp [hmiddle])
      omega

/-- One more element is the best one if its rank is greater, and else changes nothing. -/
theorem concat (h : IsBest rank elements best) (next : α) :
    IsBest rank (elements ++ [next]) (if rank best < rank next then next else best) := by
  have hle := h.le
  split
  · rename_i hlt
    exact ⟨elements, [], rfl, fun other hmem => Nat.lt_of_le_of_lt (hle other hmem) hlt,
      List.forall_mem_nil _⟩
  · rename_i hge
    obtain ⟨front, back, rfl, hfront, hback⟩ := h
    exact ⟨front, back ++ [next], by simp, hfront,
      List.forall_mem_append.mpr ⟨hback, List.forall_mem_singleton.mpr (Nat.not_lt.mp hge)⟩⟩

theorem foldl (h : IsBest rank elements best) (others : List α) :
    IsBest rank (elements ++ others)
      (others.foldl (fun best next => if rank best < rank next then next else best) best) := by
  induction others generalizing elements best with
  | nil => simpa using h
  | cons next others ih =>
    rw [List.append_cons]
    exact ih (h.concat next)

theorem single (best : α) : IsBest rank [best] best :=
  ⟨[], [], rfl, List.forall_mem_nil _, List.forall_mem_nil _⟩

/-- Looking for something that only elements as good as the best one have finds the best one. -/
theorem find? (h : IsBest rank elements best) {p : α → Bool} (holds : p best = true)
    (only : ∀ other ∈ elements, p other = true → rank best ≤ rank other) :
    elements.find? p = some best := by
  obtain ⟨front, back, rfl, hfront, -⟩ := h
  refine List.find?_eq_some_iff_append.mpr ⟨holds, front, back, rfl, fun other hmem => ?_⟩
  have hlt := hfront other hmem
  by_contra hother
  have hle := only other (by simp [hmem]) (by simpa using hother)
  omega

/-- The best one of what several sources give. -/
theorem filterMap {β : Type} {give : β → Option α} {front back : List β} {source : β}
    (gives : give source = some best)
    (before : ∀ one ∈ front, ∀ other, give one = some other → rank other < rank best)
    (behind : ∀ one ∈ back, ∀ other, give one = some other → rank other ≤ rank best) :
    IsBest rank ((front ++ source :: back).filterMap give) best := by
  refine ⟨front.filterMap give, back.filterMap give, ?_, fun other hmem => ?_, fun other hmem => ?_⟩
  · rw [List.filterMap_append, List.filterMap_cons_some gives]
  · obtain ⟨one, hone, hgive⟩ := List.mem_filterMap.mp hmem
    exact before one hone other hgive
  · obtain ⟨one, hone, hgive⟩ := List.mem_filterMap.mp hmem
    exact behind one hone other hgive

/-- Where the best one of what several sources give comes from. -/
theorem of_filterMap {β : Type} {give : β → Option α} {sources : List β}
    (h : IsBest rank (sources.filterMap give) best) :
    ∃ front source back, sources = front ++ source :: back ∧ give source = some best ∧
      ∀ one ∈ front, ∀ other, give one = some other → rank other < rank best := by
  obtain ⟨before, behind, heq, hbefore, -⟩ := h
  obtain ⟨front, rest, rfl, hfront, hrest⟩ := List.filterMap_eq_append_iff.mp heq
  obtain ⟨skipped, source, back, rfl, hskipped, hsource, -⟩ := List.filterMap_eq_cons_iff.mp hrest
  refine ⟨front ++ skipped, source, back, by simp, hsource, fun one hmem other hgive => ?_⟩
  rcases List.mem_append.mp hmem with hone | hone
  · exact hbefore other (hfront ▸ List.mem_filterMap.mpr ⟨one, hone, hgive⟩)
  · rw [hskipped one hone] at hgive
    cases hgive

end IsBest

end Best

/-! ### Candidates -/

namespace CompiledGrammar

variable {compiled : CompiledGrammar} {text : List Char}

/-- What a terminal matches at the start of a text, a keyword like any other literal, and whether
it is a literal. -/
def ordinary? (text : List Char) (terminal : Terminal) : Option (Lexeme × Bool) :=
  (terminal.matcher.scan? text).map fun scan =>
    (⟨terminal.kind, scan.length, scan.error⟩, terminal.matcher.isLiteral)

/-- **What the longest match should be**: of what all terminals match the longest, of equally long
matches a literal, and of these the first. -/
def longestOfAll? (compiled : CompiledGrammar) (text : List Char) : Option Lexeme :=
  let candidates := compiled.lexicon.terminals.filterMap (ordinary? text)
  let longest := candidates.filter fun one =>
    candidates.all fun other => other.1.length ≤ one.1.length
  ((longest.find? (·.2)).or longest.head?).map (·.1)

/-- How good a candidate is: by its length, and then by whether it is a literal. -/
def rank (candidate : Lexeme × Bool) : Nat :=
  2 * candidate.1.length + if candidate.2 then 1 else 0

theorem better_eq_of_rank (first second : Lexeme × Bool) :
    better first second = if rank first < rank second then second else first := by
  obtain ⟨one, literal⟩ := first
  obtain ⟨two, literal'⟩ := second
  unfold better rank
  congr 1
  cases literal <;> cases literal' <;> simp <;> omega

/-- Lexing finds the best one of what it tries. -/
theorem longestMatch?_of_isBest {candidate : Lexeme × Bool}
    (best : IsBest rank (compiled.lexicon.terminals.filterMap (compiled.candidate? text))
      candidate) : compiled.longestMatch? text = some candidate.1 := by
  simp only [longestMatch?]
  cases hcandidates : compiled.lexicon.terminals.filterMap (compiled.candidate? text) with
  | nil =>
    rw [hcandidates] at best
    cases best.mem
  | cons first rest =>
    have hbest := IsBest.foldl (IsBest.single first : IsBest rank [first] first) rest
    rw [hcandidates] at best
    rw [funext fun first => funext fun second => better_eq_of_rank first second]
    exact congrArg (fun candidate => some candidate.1) (hbest.unique best)

theorem longestOfAll?_of_nil
    (h : compiled.lexicon.terminals.filterMap (ordinary? text) = []) :
    compiled.longestOfAll? text = none := by
  unfold longestOfAll?
  rw [h]
  rfl

theorem rank_of_literal {candidate : Lexeme × Bool} (h : candidate.2 = true) :
    rank candidate = 2 * candidate.1.length + 1 := by
  rw [rank, if_pos h]

theorem rank_of_not_literal {candidate : Lexeme × Bool} (h : candidate.2 = false) :
    rank candidate = 2 * candidate.1.length := by
  rw [rank, if_neg (by simp [h]), Nat.add_zero]

theorem le_rank (candidate : Lexeme × Bool) : 2 * candidate.1.length ≤ rank candidate :=
  Nat.le_add_right _ _

theorem rank_le (candidate : Lexeme × Bool) : rank candidate ≤ 2 * candidate.1.length + 1 := by
  unfold rank
  split <;> omega

/-- What should be found is the best one of what all terminals match. -/
theorem longestOfAll?_of_isBest {candidate : Lexeme × Bool}
    (best : IsBest rank (compiled.lexicon.terminals.filterMap (ordinary? text)) candidate) :
    compiled.longestOfAll? text = some candidate.1 := by
  unfold longestOfAll?
  generalize compiled.lexicon.terminals.filterMap (ordinary? text) = candidates at best ⊢
  simp only [List.find?_filter, List.head?_filter]
  have hiff (one : Lexeme × Bool) :
      (candidates.all fun other => decide (other.1.length ≤ one.1.length)) = true ↔
        ∀ other ∈ candidates, other.1.length ≤ one.1.length := by
    simp
  have hcandidate : (candidates.all fun other =>
      decide (other.1.length ≤ candidate.1.length)) = true := by
    refine (hiff candidate).mpr fun other hmem => ?_
    have hle := best.le other hmem
    have hlow := le_rank other
    have hhigh := rank_le candidate
    omega
  have hlow := le_rank candidate
  cases hliteral : candidate.2 with
  | true =>
    rw [best.find? (decide_eq_true ⟨hcandidate, hliteral⟩) fun other _ hother => ?_]
    · rfl
    · obtain ⟨hother, hliteral'⟩ := of_decide_eq_true hother
      have hle := (hiff other).mp hother candidate best.mem
      rw [rank_of_literal hliteral, rank_of_literal hliteral']
      omega
  | false =>
    have hrank := rank_of_not_literal hliteral
    -- a literal that is as long would be better
    rw [List.find?_eq_none.mpr fun other hmem hother => ?_,
      best.find? hcandidate fun other _ hother => ?_]
    · rfl
    · have hle := (hiff other).mp hother candidate best.mem
      have hlow' := le_rank other
      omega
    · obtain ⟨hother, hliteral'⟩ := of_decide_eq_true hother
      have hle := (hiff other).mp hother candidate best.mem
      have hrank' := best.le other hmem
      rw [rank_of_literal hliteral'] at hrank'
      omega

end CompiledGrammar

/-! ### Keywords and the word terminal -/

namespace Matcher

variable {text : List Char} {scan : Scan}

theorem scan?_literal {content : String} : (literal content).scan? text = some scan ↔
    content.toList <+: text ∧ 0 < content.toList.length ∧
      scan = ⟨content.toList.length, none⟩ := by
  rw [scan?, Scan.unlessEmpty, Option.filter_eq_some_iff]
  constructor
  · rintro ⟨hfound, hpositive⟩
    split at hfound
    · rename_i hstarts
      obtain rfl := Option.some.inj hfound
      exact ⟨Scan.startsWith_iff.mp hstarts, of_decide_eq_true hpositive, rfl⟩
    · cases hfound
  · rintro ⟨hstarts, hpositive, rfl⟩
    rw [if_pos (Scan.startsWith_iff.mpr hstarts)]
    exact ⟨rfl, decide_eq_true hpositive⟩

theorem scan?_pattern {inner : Pattern} : (pattern inner).scan? text = some scan ↔
    inner.longest? Unicode.isWordCharacter text = some scan.length ∧ 0 < scan.length ∧
      scan.error = none := by
  rw [scan?, Scan.unlessEmpty, Option.filter_eq_some_iff, Option.map_eq_some_iff]
  constructor
  · rintro ⟨⟨length, hlength, rfl⟩, hpositive⟩
    exact ⟨hlength, of_decide_eq_true hpositive, rfl⟩
  · rintro ⟨hlength, hpositive, herror⟩
    exact ⟨⟨scan.length, hlength, by rw [← herror]⟩, decide_eq_true hpositive⟩

end Matcher

/-- The pattern of the word terminal persists, if there is one. -/
def Lexicon.WordPersists (lexicon : Lexicon) : Prop :=
  ∀ word pattern, lexicon.wordPattern? = some (word, pattern) → pattern.Persists

namespace CompiledGrammar

variable {compiled : CompiledGrammar} {text : List Char} {terminal keyword : Terminal}
  {candidate other : Lexeme × Bool}

theorem of_ordinary? (h : ordinary? text terminal = some candidate) :
    terminal.matcher.scan? text = some ⟨candidate.1.length, candidate.1.error⟩ ∧
      candidate.1.kind = terminal.kind ∧ candidate.2 = terminal.matcher.isLiteral := by
  obtain ⟨scan, hscan, rfl⟩ := Option.map_eq_some_iff.mp h
  exact ⟨hscan, rfl, rfl⟩

/-- A literal matches its text. -/
theorem of_ordinary?_literal {content : String} (matcher : terminal.matcher = .literal content)
    (h : ordinary? text terminal = some candidate) :
    candidate = (⟨terminal.kind, content.toList.length, none⟩, true) ∧
      content.toList = text.take candidate.1.length := by
  obtain ⟨hscan, hkind, hliteral⟩ := of_ordinary? h
  rw [matcher] at hscan hliteral
  obtain ⟨hstarts, -, heq⟩ := Matcher.scan?_literal.mp hscan
  obtain ⟨hlength, herror⟩ := Scan.mk.inj heq
  obtain ⟨⟨kind, length, error⟩, literal⟩ := candidate
  subst hkind hliteral hlength herror
  exact ⟨rfl, List.prefix_iff_eq_take.mp hstarts⟩

/-- A terminal that gives a literal is one. -/
theorem matcher_of_literal (h : ordinary? text terminal = some candidate)
    (literal : candidate.2 = true) : ∃ content, terminal.matcher = .literal content := by
  rw [(of_ordinary? h).2.2] at literal
  unfold Matcher.isLiteral at literal
  split at literal
  · rename_i content hmatcher
    exact ⟨content, hmatcher⟩
  · cases literal

/-- What a terminal matches is tried in some form, unless it is a keyword. -/
theorem exists_candidate? (compiled : CompiledGrammar) (plain : terminal.isKeyword = false)
    (h : ordinary? text terminal = some candidate) : ∃ tried,
      compiled.candidate? text terminal = some tried ∧
        tried.1.length = candidate.1.length := by
  obtain ⟨scan, hscan, rfl⟩ := Option.map_eq_some_iff.mp h
  rw [candidate?, if_neg (by simp [plain]), hscan]
  refine ⟨_, rfl, ?_⟩
  dsimp only
  split <;> rfl

section Tried
variable (distinct : compiled.lexicon.Distinct) (keywords : compiled.lexicon.HasKeywords)
include distinct keywords

/-- **What lexing tries is what some terminal matches**: the terminal itself, or, if it is the
word terminal, the keyword that is looked up. -/
theorem of_candidate?_eq_some (hmem : terminal ∈ compiled.lexicon.terminals)
    (h : compiled.candidate? text terminal = some candidate) :
    ordinary? text terminal = some candidate ∨
      compiled.lexicon.word = some terminal.kind ∧ ∃ keyword ∈ compiled.lexicon.terminals,
        keyword.isKeyword = true ∧ ordinary? text keyword = some candidate := by
  unfold candidate? at h
  split at h
  · cases h
  · obtain ⟨scan, hscan, heq⟩ := Option.map_eq_some_iff.mp h
    simp only at heq
    split at heq
    · rename_i kind hfound
      split at hfound
      · rename_i hword
        obtain ⟨keyword, hkeyword, hisKeyword, rfl, hmatcher⟩ := keywords.found _ _ hfound
        obtain ⟨word, pattern, _, hpattern, -⟩ := keywords.covered keyword hkeyword hisKeyword
        obtain ⟨hword', other, hother, hkind, hmatcher'⟩ := Lexicon.of_wordPattern? hpattern
        obtain rfl : terminal = other := distinct.eq_of_kind hmem hother
          ((Option.some.inj (hword.symm.trans hword')).trans hkind.symm)
        -- the word terminal is a pattern, so it has no error
        rw [hmatcher'] at hscan
        obtain ⟨hlongest, hpositive, herror⟩ := Matcher.scan?_pattern.mp hscan
        have hlength : (String.ofList (text.take scan.length)).toList.length = scan.length := by
          rw [String.toList_ofList, List.length_take,
            Nat.min_eq_left (Pattern.longest?_le hlongest)]
        refine .inr ⟨hword, keyword, hkeyword, hisKeyword, ?_⟩
        rw [← heq, ordinary?, hmatcher, Matcher.scan?_literal.mpr ⟨?_, ?_, rfl⟩, hlength, herror]
        · rfl
        · rw [String.toList_ofList]
          exact List.take_prefix _ _
        · rw [hlength]
          exact hpositive
      · cases hfound
    · rw [← heq, ordinary?, hscan]
      exact .inl rfl

theorem mem_of_candidate? (hmem : terminal ∈ compiled.lexicon.terminals)
    (h : compiled.candidate? text terminal = some candidate) :
    candidate ∈ compiled.lexicon.terminals.filterMap (ordinary? text) := by
  rcases of_candidate?_eq_some distinct keywords hmem h with
    hordinary | ⟨-, keyword, hkeyword, -, hordinary⟩
  · exact List.mem_filterMap.mpr ⟨terminal, hmem, hordinary⟩
  · exact List.mem_filterMap.mpr ⟨keyword, hkeyword, hordinary⟩

/-- Nothing that lexing tries is better than the best match of all terminals. -/
theorem rank_candidate?_le
    (best : IsBest rank (compiled.lexicon.terminals.filterMap (ordinary? text)) candidate)
    (hmem : terminal ∈ compiled.lexicon.terminals)
    (h : compiled.candidate? text terminal = some other) : rank other ≤ rank candidate :=
  best.le other (mem_of_candidate? distinct keywords hmem h)

omit distinct in
/-- A keyword is a literal. -/
theorem literal_of_isKeyword (hkeyword : keyword ∈ compiled.lexicon.terminals)
    (isKeyword : keyword.isKeyword = true) (h : ordinary? text keyword = some candidate) :
    candidate.2 = true := by
  obtain ⟨_, _, content, -, hmatcher, -⟩ := keywords.covered keyword hkeyword isKeyword
  rw [(of_ordinary?_literal hmatcher h).1]

omit distinct in
/-- **Where a keyword matches, the word terminal matches** at least as much. -/
theorem exists_word_of_isKeyword (persists : compiled.lexicon.WordPersists)
    (hkeyword : keyword ∈ compiled.lexicon.terminals) (isKeyword : keyword.isKeyword = true)
    {scan : Scan} (h : keyword.matcher.scan? text = some scan) :
    ∃ terminal ∈ compiled.lexicon.terminals, compiled.lexicon.word = some terminal.kind ∧
      terminal.isKeyword = false ∧ (∃ pattern, terminal.matcher = .pattern pattern) ∧
      ∃ length, scan.length ≤ length ∧ terminal.matcher.scan? text = some ⟨length, none⟩ := by
  obtain ⟨word, pattern, content, hpattern, hmatcher, hlongest, -⟩ :=
    keywords.covered keyword hkeyword isKeyword
  obtain ⟨hword, terminal, hterminal, rfl, hmatcher'⟩ := Lexicon.of_wordPattern? hpattern
  obtain ⟨hstarts, hpositive, rfl⟩ := Matcher.scan?_literal.mp (hmatcher ▸ h)
  obtain ⟨rest, rfl⟩ := hstarts
  obtain ⟨length, hfound, hle⟩ := persists _ _ hpattern _ rest hlongest
  refine ⟨terminal, hterminal, hword, ?_, ⟨pattern, hmatcher'⟩, length, hle, ?_⟩
  · -- a keyword is a literal
    by_contra hnot
    obtain ⟨_, _, _, -, hliteral, -⟩ := keywords.covered terminal hterminal (by simpa using hnot)
    rw [hmatcher'] at hliteral
    cases hliteral
  · rw [hmatcher']
    exact Matcher.scan?_pattern.mpr ⟨hfound, Nat.lt_of_lt_of_le hpositive hle, rfl⟩

variable (unnamed : compiled.lexicon.KeywordsUnnamed)
include unnamed

/-- **What is as good as a keyword is that keyword.** -/
theorem eq_keyword_of_rank (hterminal : terminal ∈ compiled.lexicon.terminals)
    (hkeyword : keyword ∈ compiled.lexicon.terminals) (isKeyword : keyword.isKeyword = true)
    (h : ordinary? text terminal = some candidate) (h' : ordinary? text keyword = some other)
    (same : rank candidate = rank other) : terminal = keyword := by
  rw [rank_of_literal (literal_of_isKeyword keywords hkeyword isKeyword h')] at same
  -- an odd rank is that of a literal
  have hliteral : candidate.2 = true := by
    by_contra hnot
    rw [rank_of_not_literal (Bool.eq_false_iff.mpr hnot)] at same
    omega
  rw [rank_of_literal hliteral] at same
  obtain ⟨content, hmatcher⟩ := matcher_of_literal h hliteral
  obtain ⟨_, _, content', -, hmatcher', -⟩ := keywords.covered keyword hkeyword isKeyword
  obtain ⟨-, htaken⟩ := of_ordinary?_literal hmatcher h
  obtain ⟨-, htaken'⟩ := of_ordinary?_literal hmatcher' h'
  have hcontent : content = content' := by
    rw [← String.toList_inj, htaken, htaken', show candidate.1.length = other.1.length by omega]
  exact distinct.eq_keyword keywords unnamed hterminal hkeyword isKeyword hmatcher
    (hcontent ▸ hmatcher')

section Best
variable (best : IsBest rank (compiled.lexicon.terminals.filterMap (ordinary? text)) candidate)
include best

/-- **The best match of all terminals is the best one of what lexing tries**, if it is not a
keyword. -/
theorem isBest_of_not_isKeyword {front back : List Terminal}
    (terminals : compiled.lexicon.terminals = front ++ terminal :: back)
    (found : ordinary? text terminal = some candidate)
    (before : ∀ one ∈ front, ∀ other, ordinary? text one = some other →
      rank other < rank candidate) (plain : terminal.isKeyword = false) :
    IsBest rank (compiled.lexicon.terminals.filterMap (compiled.candidate? text)) candidate := by
  have hmem : terminal ∈ compiled.lexicon.terminals := by simp [terminals]
  -- no keyword is as good
  have hkeyword {keyword : Terminal} (hkeyword : keyword ∈ compiled.lexicon.terminals)
      (isKeyword : keyword.isKeyword = true) {other : Lexeme × Bool}
      (h : ordinary? text keyword = some other) : rank candidate ≠ rank other := by
    intro heq
    obtain rfl := eq_keyword_of_rank distinct keywords unnamed hmem hkeyword isKeyword found h heq
    rw [plain] at isKeyword
    cases isKeyword
  have hcandidate : compiled.candidate? text terminal = some candidate := by
    obtain ⟨tried, htried, hlength⟩ := exists_candidate? compiled plain found
    rcases of_candidate?_eq_some distinct keywords hmem htried with
      hordinary | ⟨-, keyword, hmem', isKeyword, hordinary⟩
    · rw [htried, ← hordinary, found]
    · have hrank := rank_of_literal (literal_of_isKeyword keywords hmem' isKeyword hordinary)
      have hle := best.le tried (List.mem_filterMap.mpr ⟨keyword, hmem', hordinary⟩)
      have hhigh := rank_le candidate
      exact absurd (by omega) (hkeyword hmem' isKeyword hordinary)
  rw [terminals]
  refine .filterMap hcandidate (fun one hone other h => ?_) fun one hone other h =>
    rank_candidate?_le distinct keywords best (by simp [terminals, hone]) h
  have hone' : one ∈ compiled.lexicon.terminals := by simp [terminals, hone]
  rcases of_candidate?_eq_some distinct keywords hone' h with
    hordinary | ⟨-, keyword, hmem', isKeyword, hordinary⟩
  · exact before one hone other hordinary
  · have hle := best.le other (List.mem_filterMap.mpr ⟨keyword, hmem', hordinary⟩)
    exact Nat.lt_of_le_of_ne hle (hkeyword hmem' isKeyword hordinary).symm

/-- **If it is a keyword, lexing finds it where the word terminal stands.** -/
theorem isBest_of_isKeyword
    (persists : compiled.lexicon.WordPersists) (hmem : keyword ∈ compiled.lexicon.terminals)
    (isKeyword : keyword.isKeyword = true) (found : ordinary? text keyword = some candidate) :
    IsBest rank (compiled.lexicon.terminals.filterMap (compiled.candidate? text)) candidate := by
  obtain ⟨_, _, content, -, hmatcher, -, hlookup⟩ := keywords.covered keyword hmem isKeyword
  obtain ⟨terminal, hterminal, hword, hplain, ⟨pattern, hmatcher'⟩, length, hle, hscan⟩ :=
    exists_word_of_isKeyword keywords persists hmem isKeyword (of_ordinary? found).1
  obtain ⟨hcandidate, htaken⟩ := of_ordinary?_literal hmatcher found
  have hrank := rank_of_literal (literal_of_isKeyword keywords hmem isKeyword found)
  -- the word terminal takes what the keyword takes: more would be better
  have hordinary : ordinary? text terminal = some (⟨terminal.kind, length, none⟩, false) := by
    rw [ordinary?, hscan, hmatcher']
    rfl
  have hbest := best.le _ (List.mem_filterMap.mpr ⟨terminal, hterminal, hordinary⟩)
  obtain rfl : length = candidate.1.length := by
    rw [rank_of_not_literal rfl] at hbest
    dsimp only at hbest hle
    omega
  have hpromoted : compiled.candidate? text terminal = some candidate := by
    obtain ⟨kind, hkind⟩ := Option.isSome_iff_exists.mp hlookup
    obtain ⟨other, hother, hother', rfl, hmatcher''⟩ := keywords.found content kind hkind
    obtain rfl := distinct.eq_keyword keywords unnamed hmem hother hother' hmatcher hmatcher''
    rw [candidate?, if_neg (by simp [hplain]), hscan]
    simp only [Option.map_some, hword, if_true, ← htaken, String.ofList_toList, hkind]
    rw [hcandidate]
  obtain ⟨front, back, hterminals, hfresh⟩ := List.eq_append_cons_of_mem hterminal
  rw [hterminals]
  refine .filterMap hpromoted (fun one hone other h => ?_) fun one hone other h =>
    rank_candidate?_le distinct keywords best (by simp [hterminals, hone]) h
  have hone' : one ∈ compiled.lexicon.terminals := by simp [hterminals, hone]
  refine Nat.lt_of_le_of_ne (rank_candidate?_le distinct keywords best hone' h) fun heq => ?_
  rcases of_candidate?_eq_some distinct keywords hone' h with hordinary | ⟨hword', -⟩
  · obtain rfl := eq_keyword_of_rank distinct keywords unnamed hone' hmem isKeyword hordinary found
      heq
    rw [(of_candidate? h).1] at isKeyword
    cases isKeyword
  · obtain rfl := distinct.eq_of_kind hone' hterminal (Option.some.inj (hword'.symm.trans hword))
    exact hfresh hone

end Best

end Tried

end CompiledGrammar

/-! ### A keyword -/

/-- A grammar with the keyword `xx` among the words `x`, `xx`, `xxx` and so on. -/
def Grammar.words : Grammar :=
  { Grammar.empty "words" with
    rules := [
      ("s", .seq [.literal "xx", .reference "word"]),
      ("word", .token (.repetition 1 (.literal "x")))]
    start := some "s"
    word := some "word" }

/-- What it is compiled to. -/
def CompiledGrammar.words : CompiledGrammar := Grammar.words.compile.toOption.getD default

theorem Grammar.compile_words : Grammar.words.compile = .ok CompiledGrammar.words :=
  Grammar.compile_eq_getD (by with_unfolding_all decide)

namespace CompiledGrammar

theorem wordPersists_words : words.lexicon.WordPersists := by
  intro word pattern h
  have hrun : (words.lexicon.wordPattern?).any (·.2.isSetRun) = true := by with_unfolding_all decide
  rw [h] at hrun
  exact Pattern.persists_of_isSetRun hrun

end CompiledGrammar

end Syntagm
