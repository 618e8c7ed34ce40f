import Syntagm.Proofs.Rendering

/-!
# Reading an expression that was written down

An expression that was written as tokens is read back (`roundTrips`), by itself and as an item of
a longer text.

**Fronts.**  `Begins tokens front behind` says that a list of tokens starts with `front`, at
whatever places, and goes on with `behind`; `Reads reading value behind` says that a reader gives
`value` and stops at `behind`.  There is one lemma for each reader.

**What follows.**  How far an expression is read depends on what stands behind it.  A sequence
ends at a bar, a closing parenthesis or a semicolon (`EndsItems`), an item must not be followed
by a postfix mark or a colon (`Settled`), and a reference that is named like a builtin not by a
parenthesis (`StandsAlone`).  In a rendering with a readable layout, each part is followed by what
it needs, since every item starts with a token that can start one (`startsItem_enclose`).

**Induction.**  A composite expression only has to be read by itself (`IsReadBack`), since it is
in parentheses elsewhere; any other one only as an item without parentheses (`IsBare`).  Both
give both (`RoundTrips`), and the induction over expressions carries that.
-/

namespace Syntagm.Notation

open Text (Shorter NotLonger)

theorem readArguments_blank (tokens : List Located) :
    readArguments "blank" tokens = .ok (.blank, .whole tokens) := by
  rw [readArguments]
  rfl

/-! ### Tokens in front -/

/-- Tokens start with `front`, and `behind` is left after it. -/
def Begins (tokens : List Located) (front : List Token) (behind : List Located) : Prop :=
  ∃ located, located.map (·.token) = front ∧ tokens = located ++ behind

theorem begins_nil {tokens behind : List Located} : Begins tokens [] behind ↔ tokens = behind := by
  simp [Begins]

theorem begins_singleton {tokens behind : List Located} {token : Token} :
    Begins tokens [token] behind ↔ ∃ offset, tokens = ⟨token, offset⟩ :: behind := by
  constructor
  · rintro ⟨located, hmap, rfl⟩
    obtain ⟨⟨found, offset⟩, rfl, rfl⟩ := List.map_eq_singleton_iff.1 hmap
    exact ⟨offset, rfl⟩
  · rintro ⟨offset, rfl⟩
    exact ⟨[⟨token, offset⟩], rfl, rfl⟩

theorem begins_append {tokens behind : List Located} {front back : List Token} :
    Begins tokens (front ++ back) behind ↔
      ∃ between, Begins tokens front between ∧ Begins between back behind := by
  constructor
  · rintro ⟨located, hmap, rfl⟩
    obtain ⟨left, right, rfl, hleft, hright⟩ := List.map_eq_append_iff.1 hmap
    exact ⟨right ++ behind, ⟨left, hleft, List.append_assoc ..⟩, ⟨right, hright, rfl⟩⟩
  · rintro ⟨between, ⟨left, rfl, rfl⟩, ⟨right, rfl, rfl⟩⟩
    exact ⟨left ++ right, List.map_append, (List.append_assoc ..).symm⟩

theorem begins_cons {tokens behind : List Located} {token : Token} {front : List Token} :
    Begins tokens (token :: front) behind ↔
      ∃ between, Begins tokens [token] between ∧ Begins between front behind :=
  @begins_append _ _ [token] _

/-- The token that comes first. -/
def first? (tokens : List Located) : Option Token := tokens.head?.map (·.token)

theorem Begins.first? {tokens behind : List Located} {front : List Token}
    (begins : Begins tokens front behind) :
    first? tokens = front.head?.or (first? behind) := by
  obtain ⟨located, rfl, rfl⟩ := begins
  cases located <;> rfl

/-! ### Readings -/

section Readings
variable {α β : Type} {P Q : List Located → Prop}

/-- A reading gives `value` and leaves `behind`. -/
def Reads (reading : Reading (α × { rest // P rest })) (value : α) (behind : List Located) : Prop :=
  ∃ rest, reading = .ok (value, rest) ∧ rest.1 = behind

theorem Reads.bind {reading : Reading (α × { rest // P rest })}
    {next : α × { rest // P rest } → Reading (β × { rest // Q rest })} {value : α} {result : β}
    {between behind : List Located} (reads : Reads reading value between)
    (onwards : ∀ rest, rest.1 = between → Reads (next (value, rest)) result behind) :
    Reads (reading >>= next) result behind := by
  obtain ⟨rest, rfl, hrest⟩ := reads
  exact onwards rest hrest

theorem readMark_bind {tokens between behind : List Located} {symbol : Char}
    {next : Shorter tokens → Reading (β × { rest // Q rest })} {result : β}
    (begins : Begins tokens [.mark symbol] between)
    (onwards : ∀ rest, rest.1 = between → Reads (next rest) result behind) :
    Reads (readMark symbol tokens >>= next) result behind := by
  obtain ⟨offset, rfl⟩ := begins_singleton.1 begins
  have hmark : readMark symbol (⟨.mark symbol, offset⟩ :: between) =
      .ok (.tail ⟨.mark symbol, offset⟩ between) := by
    simp [readMark, afterMark?]
  rw [hmark]
  exact onwards _ rfl

end Readings

section Tokens
variable {tokens behind : List Located}

theorem afterMark?_of_begins {symbol : Char} (begins : Begins tokens [.mark symbol] behind) :
    ∃ rest, afterMark? symbol tokens = some rest ∧ rest.1 = behind := by
  obtain ⟨offset, rfl⟩ := begins_singleton.1 begins
  exact ⟨.tail ⟨.mark symbol, offset⟩ behind, by simp [afterMark?], rfl⟩

theorem afterMark?_eq_none {symbol : Char} (other : first? tokens ≠ some (.mark symbol)) :
    afterMark? symbol tokens = none := by
  unfold afterMark?
  split
  · rename_i found offset rest
    exact if_neg fun h => other (by rw [h]; rfl)
  · rfl

theorem reads_identifier {name : String} (begins : Begins tokens [.identifier name] behind) :
    Reads (readIdentifier tokens) name behind := by
  obtain ⟨offset, rfl⟩ := begins_singleton.1 begins
  exact ⟨_, rfl, rfl⟩

theorem reads_string {text : String} (begins : Begins tokens [stringToken text] behind) :
    Reads (readString tokens) text behind := by
  obtain ⟨offset, rfl⟩ := begins_singleton.1 begins
  refine ⟨Shorter.tail ⟨stringToken text, offset⟩ behind, ?_, rfl⟩
  simp [stringToken, readString, unescapeString_escapeString]

theorem reads_level {level : Int} (begins : Begins tokens [levelToken level] behind)
    (least : leastLevel ≤ level) (greatest : level ≤ greatestLevel) :
    Reads (readLevel tokens) level behind := by
  obtain ⟨offset, rfl⟩ := begins_singleton.1 begins
  have hsigned : (if decide (level < 0) = true then -(level.natAbs : Int) else level.natAbs) =
      level := by
    by_cases hneg : level < 0
    · rw [if_pos (decide_eq_true hneg)]
      omega
    · rw [if_neg (by rwa [decide_eq_true_eq])]
      omega
  refine ⟨Shorter.tail ⟨levelToken level, offset⟩ behind, ?_, rfl⟩
  simp only [levelToken, readLevel, decimalNumber_toString, hsigned]
  rw [if_pos ⟨least, greatest⟩]

theorem atRule_identifier {name : String} {offset : Nat} :
    atRule (⟨.identifier name, offset⟩ :: behind) = (first? behind == some (.mark ':')) := by
  unfold atRule
  split
  · rename_i heq
    cases heq
    rfl
  · rename_i hne
    symm
    rw [beq_eq_false_iff_ne]
    intro h
    obtain _ | ⟨⟨token, mark⟩, rest⟩ := behind
    · cases h
    · cases h
      exact hne name offset mark rest rfl

end Tokens

/-! ### What may follow -/

/-- What follows an expression that stands by itself: a closing parenthesis or the end of a
rule. -/
def Closes (behind : List Located) : Prop :=
  first? behind = some (.mark ')') ∨ first? behind = some (.mark ';')

/-- What follows a sequence: as `Closes`, or a bar. -/
def EndsItems (behind : List Located) : Prop :=
  first? behind = some (.mark '|') ∨ Closes behind

/-- No postfix mark follows, and no colon. -/
def Settled (behind : List Located) : Prop :=
  ∀ symbol ∈ ['*', '+', '?', ':'], first? behind ≠ some (.mark symbol)

theorem EndsItems.settled {behind : List Located} (ends : EndsItems behind) : Settled behind := by
  obtain h | h | h := ends <;> simp [Settled, h]

theorem EndsItems.ne_opening {behind : List Located} (ends : EndsItems behind) :
    first? behind ≠ some (.mark '(') := by
  obtain h | h | h := ends <;> simp [h]

/-- Whether an item of a sequence can start with a token. -/
def startsItem : Token → Bool
  | .string _ | .pattern _ | .identifier _ | .mark '(' => true
  | _ => false

theorem settled_of_startsItem {behind : List Located} {token : Token}
    (first : first? behind = some token) (starts : startsItem token = true) : Settled behind := by
  intro symbol hsymbol h
  obtain rfl : token = .mark symbol := Option.some.inj (first.symm.trans h)
  revert starts
  revert symbol
  simp [startsItem]

theorem atPrimary_of_ends {behind : List Located} (ends : EndsItems behind) :
    atPrimary behind = false := by
  obtain _ | ⟨⟨token, offset⟩, rest⟩ := behind
  · rfl
  · obtain h | h | h := ends <;> cases h <;> rfl

/-! ### Items -/

theorem readItems_nil {behind : List Located} (ends : EndsItems behind) :
    Reads (readItems behind) [] behind := by
  rw [readItems, if_neg (by simp [atPrimary_of_ends ends])]
  exact ⟨_, rfl, rfl⟩

theorem readItems_cons {tokens between behind : List Located} {item : Expression}
    {items : List Expression} (primary : atPrimary tokens = true)
    (first : Reads (readPostfix tokens) item between)
    (others : Reads (readItems between) items behind) :
    Reads (readItems tokens) (item :: items) behind := by
  rw [readItems, if_pos primary]
  refine first.bind ?_
  rintro rest rfl
  exact others.bind fun further hfurther => ⟨_, rfl, hfurther⟩

theorem readAlternatives_last {tokens behind : List Located} {items : List Expression}
    (reads : Reads (readItems tokens) items behind) (closes : Closes behind) :
    Reads (readAlternatives tokens) [sequenceOf items] behind := by
  rw [readAlternatives]
  refine reads.bind ?_
  rintro rest rfl
  have hbar : afterMark? '|' rest.1 = none :=
    afterMark?_eq_none (by obtain h | h := closes <;> simp [h])
  simp only [hbar]
  exact ⟨_, rfl, rfl⟩

theorem readAlternatives_bar {tokens between behindBar behind : List Located}
    {items others : List Expression} (reads : Reads (readItems tokens) items between)
    (bar : Begins between [.mark '|'] behindBar)
    (further : Reads (readAlternatives behindBar) others behind) :
    Reads (readAlternatives tokens) (sequenceOf items :: others) behind := by
  rw [readAlternatives]
  refine reads.bind ?_
  rintro rest rfl
  obtain ⟨rest', hbar, rfl⟩ := afterMark?_of_begins bar
  simp only [hbar]
  exact further.bind fun last hlast => ⟨_, rfl, hlast⟩

theorem readAlternation_of_items {tokens behind : List Located} {items : List Expression}
    (reads : Reads (readItems tokens) items behind) (closes : Closes behind) :
    Reads (readAlternation tokens) (sequenceOf items) behind := by
  rw [readAlternation]
  exact (readAlternatives_last reads closes).bind fun rest hrest => ⟨rest, rfl, hrest⟩

theorem readPostfixMarks_settled {tokens : List Located} {inner : Expression}
    (settled : Settled tokens) : readPostfixMarks inner tokens = (inner, .whole tokens) := by
  rw [readPostfixMarks.eq_def]
  split
  · exact absurd rfl (settled '*' (by simp))
  · exact absurd rfl (settled '+' (by simp))
  · exact absurd rfl (settled '?' (by simp))
  · rfl

theorem readPostfix_settled {tokens behind : List Located} {item : Expression}
    (reads : Reads (readPrimary tokens) item behind) (settled : Settled behind) :
    Reads (readPostfix tokens) item behind := by
  rw [readPostfix]
  refine reads.bind ?_
  rintro rest rfl
  simp only [readPostfixMarks_settled settled]
  exact ⟨_, rfl, rfl⟩

/-- The expression that a postfix mark makes of another one. -/
def marked : Char → Expression → Expression
  | '*', inner => .repetition 0 inner
  | '+', inner => .repetition 1 inner
  | _, inner => .optional inner

theorem readPostfix_mark {tokens between behind : List Located} {inner : Expression}
    {symbol : Char} (reads : Reads (readPrimary tokens) inner between)
    (mark : Begins between [.mark symbol] behind) (isPostfix : symbol ∈ ['*', '+', '?'])
    (settled : Settled behind) :
    Reads (readPostfix tokens) (marked symbol inner) behind := by
  rw [readPostfix]
  refine reads.bind ?_
  rintro rest rfl
  obtain ⟨offset, hrest⟩ := begins_singleton.1 mark
  have hmarks : (readPostfixMarks inner rest.1).1 = marked symbol inner ∧
      (readPostfixMarks inner rest.1).2.1 = behind := by
    rw [hrest]
    simp only [List.mem_cons, List.not_mem_nil, or_false] at isPostfix
    obtain rfl | rfl | rfl := isPostfix <;>
      rw [readPostfixMarks, readPostfixMarks_settled settled] <;>
      exact ⟨rfl, rfl⟩
  exact ⟨_, by rw [← hmarks.1]; rfl, hmarks.2⟩

/-! ### Expressions -/

section Expressions
variable {layout : Layout}

/-- Whether an expression is read as one item: it is in parentheses, or it is not composite and
not read as a call. -/
structure StandsAlone (expression : Expression) (inside : Bool) (behind : List Located) :
    Prop where
  composite : expression.isComposite = true → inside = true
  call : expression.isNamedLikeBuiltin = true → inside = true ∨ first? behind ≠ some (.mark '(')

/-- An expression that stands by itself is read as it was written. -/
def IsReadBack (layout : Layout) (expression : Expression) : Prop :=
  ∀ tokens behind, Begins tokens (bodyTokens layout expression) behind → Closes behind →
    Reads (readAlternation tokens) expression behind

/-- An expression that stands alone is read as one item. -/
def IsItem (layout : Layout) (expression : Expression) : Prop :=
  ∀ inside tokens behind, StandsAlone expression inside behind →
    Begins tokens (enclose inside (bodyTokens layout expression)) behind →
      Reads (readPrimary tokens) expression behind

/-- An item starts with a token that can start one. -/
theorem startsItem_enclose (expression : Expression) (inside : Bool)
    (composite : expression.isComposite = true → inside = true) :
    ∃ token, (enclose inside (bodyTokens layout expression)).head? = some token ∧
      startsItem token = true := by
  cases inside with
  | true => exact ⟨_, rfl, rfl⟩
  | false =>
    cases expression with
    | seq | choice | repetition | optional => cases composite rfl
    | _ => simp [enclose, bodyTokens, callTokens, stringToken, patternToken, startsItem]

/-- An item is no rule header, unless a colon follows. -/
theorem atPrimary_enclose {expression : Expression} (inside : Bool)
    {tokens behind : List Located} (composite : expression.isComposite = true → inside = true)
    (begins : Begins tokens (enclose inside (bodyTokens layout expression)) behind)
    (noColon : first? behind ≠ some (.mark ':')) : atPrimary tokens = true := by
  cases inside with
  | true =>
    obtain ⟨_, hopen, -⟩ := begins_cons.1 begins
    obtain ⟨offset, rfl⟩ := begins_singleton.1 hopen
    rfl
  | false =>
    simp only [enclose, Bool.false_eq_true, if_false] at begins
    cases expression with
    | seq | choice | repetition | optional => cases composite rfl
    | literal | pattern =>
      rw [bodyTokens] at begins
      obtain ⟨offset, rfl⟩ := begins_singleton.1 begins
      rfl
    | reference name =>
      rw [bodyTokens] at begins
      obtain ⟨offset, rfl⟩ := begins_singleton.1 begins
      simpa [atPrimary, atRule_identifier] using noColon
    | _ =>
      rw [bodyTokens] at begins
      obtain ⟨_, hname, hcall⟩ := begins_cons.1 begins
      obtain ⟨offset, rfl⟩ := begins_singleton.1 hname
      simp [atPrimary, atRule_identifier, hcall.first?, inParentheses]

theorem readItems_item {expression : Expression} {items : List Expression} {inside : Bool}
    {tokens between behind : List Located} (item : IsItem layout expression)
    (alone : StandsAlone expression inside between)
    (begins : Begins tokens (enclose inside (bodyTokens layout expression)) between)
    (settled : Settled between) (others : Reads (readItems between) items behind) :
    Reads (readItems tokens) (expression :: items) behind :=
  readItems_cons (atPrimary_enclose inside alone.composite begins (settled ':' (by simp)))
    (readPostfix_settled (item _ _ _ alone begins) settled) others

/-- One item that stands alone is all of a sequence. -/
theorem readItems_single {expression : Expression} (item : IsItem layout expression)
    {inside : Bool} {tokens behind : List Located}
    (composite : expression.isComposite = true → inside = true)
    (begins : Begins tokens (enclose inside (bodyTokens layout expression)) behind)
    (ends : EndsItems behind) : Reads (readItems tokens) [expression] behind :=
  readItems_item item ⟨composite, fun _ => .inr ends.ne_opening⟩ begins ends.settled
    (readItems_nil ends)

/-- One item that stands alone is all of an alternation. -/
theorem readAlternation_single {expression : Expression} (item : IsItem layout expression)
    {inside : Bool} {tokens behind : List Located}
    (composite : expression.isComposite = true → inside = true)
    (begins : Begins tokens (enclose inside (bodyTokens layout expression)) behind)
    (closes : Closes behind) : Reads (readAlternation tokens) expression behind :=
  readAlternation_of_items (readItems_single item composite begins (.inr closes)) closes

/-- An expression is read without parentheses, unless it would be read as a call. -/
def IsBare (layout : Layout) (expression : Expression) : Prop :=
  ∀ tokens behind, (expression.isNamedLikeBuiltin = true → first? behind ≠ some (.mark '(')) →
    Begins tokens (bodyTokens layout expression) behind →
      Reads (readPrimary tokens) expression behind

theorem IsBare.isReadBack {expression : Expression} (simple : expression.isComposite = false)
    (bare : IsBare layout expression) : IsReadBack layout expression := by
  intro tokens behind begins closes
  have ends : EndsItems behind := .inr closes
  have hprimary : atPrimary tokens = true :=
    atPrimary_enclose false (by simp [simple]) begins (ends.settled ':' (by simp))
  have hitem : Reads (readPostfix tokens) expression behind :=
    readPostfix_settled (bare _ _ (fun _ => ends.ne_opening) begins) ends.settled
  exact readAlternation_of_items (readItems_cons hprimary hitem (readItems_nil ends)) closes

theorem readPrimary_inParentheses {expression : Expression} {tokens behind : List Located}
    (back : IsReadBack layout expression)
    (begins : Begins tokens (inParentheses (bodyTokens layout expression)) behind) :
    Reads (readPrimary tokens) expression behind := by
  rw [inParentheses, List.cons_append] at begins
  obtain ⟨inside, hopen, hrest⟩ := begins_cons.1 begins
  obtain ⟨between, hbody, hclose⟩ := begins_append.1 hrest
  obtain ⟨offset, rfl⟩ := begins_singleton.1 hopen
  rw [readPrimary]
  refine (back _ _ hbody (.inl hclose.first?)).bind ?_
  rintro rest rfl
  exact readMark_bind hclose fun last hlast => ⟨_, rfl, hlast⟩

/-- An expression that is read without parentheses is also read with them. -/
theorem IsBare.isItem {expression : Expression} (simple : expression.isComposite = false)
    (bare : IsBare layout expression) : IsItem layout expression := by
  intro inside tokens behind alone begins
  cases inside with
  | false => exact bare _ _ (fun hnamed => (alone.call hnamed).resolve_left (by simp)) begins
  | true => exact readPrimary_inParentheses (bare.isReadBack simple) begins

/-- A composite expression stands alone only in parentheses. -/
theorem IsReadBack.isItem {expression : Expression} (composite : expression.isComposite = true)
    (back : IsReadBack layout expression) : IsItem layout expression := by
  intro inside tokens behind alone begins
  rw [alone.composite composite] at begins
  exact readPrimary_inParentheses back begins

/-- An expression is read as it was written, by itself and as an item. -/
structure RoundTrips (layout : Layout) (expression : Expression) : Prop where
  body : IsReadBack layout expression
  item : IsItem layout expression

theorem IsBare.roundTrips {expression : Expression} (bare : IsBare layout expression)
    (simple : expression.isComposite = false) : RoundTrips layout expression :=
  ⟨bare.isReadBack simple, bare.isItem simple⟩

theorem IsReadBack.roundTrips {expression : Expression} (back : IsReadBack layout expression)
    (composite : expression.isComposite = true) : RoundTrips layout expression :=
  ⟨back, back.isItem composite⟩

/-- A call of a builtin is read if its arguments are. -/
theorem readPrimary_call {name : String} {arguments : List Token} {expression : Expression}
    {tokens behind : List Located} (builtin : builtins.contains name = true)
    (reads : ∀ inside between, Begins inside arguments between → Closes between →
      Reads (readArguments name inside) expression between)
    (begins : Begins tokens (callTokens name arguments) behind) :
    Reads (readPrimary tokens) expression behind := by
  obtain ⟨behindName, hname, hcall⟩ := begins_cons.1 begins
  rw [inParentheses, List.cons_append] at hcall
  obtain ⟨inside, hopen, hrest⟩ := begins_cons.1 hcall
  obtain ⟨between, harguments, hclose⟩ := begins_append.1 hrest
  obtain ⟨offset, rfl⟩ := begins_singleton.1 hname
  obtain ⟨rest, hmark, rfl⟩ := afterMark?_of_begins hopen
  rw [readPrimary]
  simp only [builtin, if_true, hmark]
  refine (reads _ _ harguments (.inl hclose.first?)).bind ?_
  rintro rest' rfl
  exact readMark_bind hclose fun last hlast => ⟨_, rfl, hlast⟩

/-! ### Each form of an expression -/

theorem isBare_literal (text : String) : IsBare layout (.literal text) := by
  intro tokens behind _ begins
  obtain ⟨rest, hread, hrest⟩ := reads_string begins
  rw [bodyTokens] at begins
  obtain ⟨offset, rfl⟩ := begins_singleton.1 begins
  rw [stringToken] at hread ⊢
  rw [readPrimary, hread]
  exact ⟨rest, rfl, hrest⟩

theorem isBare_pattern (source : String) : IsBare layout (.pattern source) := by
  intro tokens behind _ begins
  rw [bodyTokens] at begins
  obtain ⟨offset, rfl⟩ := begins_singleton.1 begins
  rw [patternToken, readPrimary]
  simp only [String.toList_ofList, unescapePattern_escapePattern, String.ofList_toList]
  exact ⟨_, rfl, rfl⟩

theorem isBare_reference (name : String) : IsBare layout (.reference name) := by
  intro tokens behind call begins
  rw [bodyTokens] at begins
  obtain ⟨offset, rfl⟩ := begins_singleton.1 begins
  have hnone : (if builtins.contains name then afterMark? '(' behind else none) = none := by
    split
    · exact afterMark?_eq_none (call ‹_›)
    · rfl
  rw [readPrimary, hnone]
  exact ⟨_, rfl, rfl⟩

theorem isBare_blank : IsBare layout .blank := by
  intro tokens behind _ begins
  rw [bodyTokens] at begins
  refine readPrimary_call (by decide) (fun inside between harguments _ => ?_) begins
  obtain rfl := begins_nil.1 harguments
  exact ⟨_, readArguments_blank inside, rfl⟩

theorem isBare_blockOf (name opening closing : String)
    (block : name = "nested" ∨ name = "delimited" ∨ name = "quoted") :
    IsBare layout (blockOf name opening closing) := by
  intro tokens behind _ begins
  have hbegins : Begins tokens
      (callTokens name [stringToken opening, .mark ',', stringToken closing]) behind := by
    obtain rfl | rfl | rfl := block <;> exact begins
  refine readPrimary_call (by obtain rfl | rfl | rfl := block <;> decide)
    (fun inside between harguments _ => ?_) hbegins
  obtain ⟨_, hopening, hrest⟩ := begins_cons.1 harguments
  obtain ⟨_, hcomma, hclosing⟩ := begins_cons.1 hrest
  obtain rfl | rfl | rfl := block
  all_goals
    rw [readArguments]
    · refine (reads_string hopening).bind ?_
      rintro _ rfl
      refine readMark_bind hcomma ?_
      rintro _ rfl
      exact (reads_string hclosing).bind fun last hlast => ⟨_, rfl, hlast⟩
    all_goals decide

/-- The argument of a builtin is read, whether it is in parentheses of its own or not. -/
theorem readAlternation_argument {inner : Expression} (trips : RoundTrips layout inner)
    {inside : Bool} {tokens behind : List Located}
    (begins : Begins tokens (enclose inside (bodyTokens layout inner)) behind)
    (closes : Closes behind) : Reads (readAlternation tokens) inner behind := by
  cases inside with
  | false => exact trips.body _ _ begins closes
  | true => exact readAlternation_single trips.item (fun _ => rfl) begins closes

theorem isBare_token {inner : Expression} (trips : RoundTrips layout inner) :
    IsBare layout (.token inner) := by
  intro tokens behind _ begins
  rw [bodyTokens] at begins
  refine readPrimary_call (by decide) (fun inside between harguments closes => ?_) begins
  rw [readArguments]
  exact (readAlternation_argument trips harguments closes).bind
    fun rest hrest => ⟨rest, rfl, hrest⟩

theorem isBare_precedence {level : Int} (associativity : Associativity) {inner : Expression}
    (least : leastLevel ≤ level) (greatest : level ≤ greatestLevel)
    (trips : RoundTrips layout inner) : IsBare layout (.precedence level associativity inner) := by
  intro tokens behind _ begins
  rw [bodyTokens] at begins
  refine readPrimary_call (by cases associativity <;> decide)
    (fun inside between harguments closes => ?_) begins
  obtain ⟨_, hlevel, hrest⟩ := begins_cons.1 harguments
  obtain ⟨_, hcomma, hinner⟩ := begins_cons.1 hrest
  cases associativity
  all_goals
    rw [precedenceName, readArguments]
    refine (reads_level hlevel least greatest).bind ?_
    rintro _ rfl
    refine readMark_bind hcomma ?_
    rintro _ rfl
    exact (readAlternation_argument trips hinner closes).bind
      fun rest hrest => ⟨_, rfl, hrest⟩

section Composites
variable (readable : layout.IsReadable)
include readable

/-- Behind an item comes the next item or the end of the sequence, and no parenthesis unless
the next item has one. -/
theorem settled_itemsTokens {items : List Expression} {tokens behind : List Located}
    (begins : Begins tokens (itemsTokens layout items) behind) (ends : EndsItems behind) :
    Settled tokens ∧
      (opens (itemsTokens layout items) = false → first? tokens ≠ some (.mark '(')) := by
  cases items with
  | nil =>
    obtain rfl := begins_nil.1 begins
    exact ⟨ends.settled, fun _ => ends.ne_opening⟩
  | cons item rest =>
    obtain ⟨token, htoken, hstarts⟩ := @startsItem_enclose layout item
      (layout.enclosed item ||
        layout.guarded && item.isNamedLikeBuiltin && opens (itemsTokens layout rest))
      (by simp +contextual [readable.composite])
    have hfirst : (itemsTokens layout (item :: rest)).head? = some token := by
      rw [itemsTokens, List.head?_append, htoken]
      rfl
    have htokens : first? tokens = some token := by rw [begins.first?, hfirst]; rfl
    refine ⟨settled_of_startsItem htokens hstarts, fun hopens => ?_⟩
    rw [htokens, ← hfirst]
    simpa [opens] using hopens

/-- **Items** of a sequence are read one after the other. -/
theorem readItems_itemsTokens {items : List Expression} (areItems : ∀ e ∈ items, IsItem layout e)
    {tokens behind : List Located} (begins : Begins tokens (itemsTokens layout items) behind)
    (ends : EndsItems behind) : Reads (readItems tokens) items behind := by
  induction items generalizing tokens with
  | nil =>
    obtain rfl := begins_nil.1 begins
    exact readItems_nil ends
  | cons item rest ih =>
    rw [itemsTokens] at begins
    obtain ⟨between, hitem, hrest⟩ := begins_append.1 begins
    have hothers := ih (fun e he => areItems e (.tail _ he)) hrest
    obtain ⟨hsettled, hcall⟩ := settled_itemsTokens readable hrest ends
    refine readItems_item (areItems item (.head _)) ⟨?_, ?_⟩ hitem hsettled hothers
    · exact fun h => by simp [readable.composite item h]
    · intro hnamed
      cases hopens : opens (itemsTokens layout rest) with
      | true => exact .inl (by simp [hnamed, readable.guarded])
      | false => exact .inr (hcall hopens)

/-- **Alternatives** of a choice are read one after the other. -/
theorem readAlternatives_alternativesTokens {alternatives : List Expression}
    (areItems : ∀ e ∈ alternatives, IsItem layout e) (some_ : alternatives ≠ [])
    {tokens behind : List Located}
    (begins : Begins tokens (alternativesTokens layout alternatives) behind)
    (closes : Closes behind) : Reads (readAlternatives tokens) alternatives behind := by
  induction alternatives generalizing tokens with
  | nil => exact absurd rfl some_
  | cons first others ih =>
    have hfirst := areItems first (.head _)
    cases others with
    | nil =>
      rw [alternativesTokens] at begins
      exact readAlternatives_last
        (readItems_single hfirst (readable.composite first) begins (.inr closes)) closes
    | cons second rest =>
      rw [alternativesTokens] at begins
      obtain ⟨between, hitem, hmore⟩ := begins_append.1 begins
      obtain ⟨behindBar, hbar, hothers⟩ := begins_cons.1 hmore
      have hread := readItems_single hfirst (readable.composite first) hitem (.inl hbar.first?)
      exact readAlternatives_bar hread hbar
        (ih (fun e he => areItems e (.tail _ he)) (List.cons_ne_nil _ _) hothers)

theorem isReadBack_seq {items : List Expression} (areItems : ∀ e ∈ items, IsItem layout e)
    (two : 2 ≤ items.length) : IsReadBack layout (.seq items) := by
  intro tokens behind begins closes
  rw [bodyTokens] at begins
  have hread := readAlternation_of_items
    (readItems_itemsTokens readable areItems begins (.inr closes)) closes
  match items, two with
  | _ :: _ :: _, _ => exact hread

theorem isReadBack_choice {alternatives : List Expression}
    (areItems : ∀ e ∈ alternatives, IsItem layout e) (two : 2 ≤ alternatives.length) :
    IsReadBack layout (.choice alternatives) := by
  intro tokens behind begins closes
  rw [bodyTokens] at begins
  rw [readAlternation]
  match alternatives, two with
  | first :: second :: rest, _ =>
    exact (readAlternatives_alternativesTokens readable areItems (List.cons_ne_nil _ _) begins
      closes).bind fun last hlast => ⟨last, rfl, hlast⟩

theorem isReadBack_marked (symbol : Char) (isPostfix : symbol ∈ ['*', '+', '?'])
    {inner : Expression} (item : IsItem layout inner)
    (tokens_eq : bodyTokens layout (marked symbol inner) =
      enclose (layout.enclosed inner) (bodyTokens layout inner) ++ [.mark symbol]) :
    IsReadBack layout (marked symbol inner) := by
  intro tokens behind begins closes
  rw [tokens_eq] at begins
  obtain ⟨between, hinner, hmark⟩ := begins_append.1 begins
  have ends : EndsItems behind := .inr closes
  have hbetween : first? between = some (.mark symbol) := hmark.first?
  have hother : ∀ other ∉ ['*', '+', '?'], first? between ≠ some (.mark other) := by
    intro other hother h
    rw [hbetween] at h
    cases h
    exact hother isPostfix
  have hprimary : atPrimary tokens = true :=
    atPrimary_enclose _ (readable.composite inner) hinner (hother ':' (by decide))
  have halone : StandsAlone inner (layout.enclosed inner) between :=
    ⟨readable.composite inner, fun _ => .inr (hother '(' (by decide))⟩
  have hitem : Reads (readPostfix tokens) (marked symbol inner) behind :=
    readPostfix_mark (item _ _ _ halone hinner) hmark isPostfix ends.settled
  exact readAlternation_of_items (readItems_cons hprimary hitem (readItems_nil ends)) closes

end Composites

mutual

/-- **Expressions round trip**, if the notation has a form for them. -/
theorem roundTrips (readable : layout.IsReadable) :
    ∀ expression : Expression, expression.isExpressible = true → RoundTrips layout expression
  | .literal text, _ => (isBare_literal text).roundTrips rfl
  | .pattern source, _ => (isBare_pattern source).roundTrips rfl
  | .reference name, _ => (isBare_reference name).roundTrips rfl
  | .blank, _ => isBare_blank.roundTrips rfl
  | .nested opening closing, _ =>
    (isBare_blockOf "nested" opening closing (.inl rfl)).roundTrips rfl
  | .delimited opening closing, _ =>
    (isBare_blockOf "delimited" opening closing (.inr (.inl rfl))).roundTrips rfl
  | .quoted opening closing, _ =>
    (isBare_blockOf "quoted" opening closing (.inr (.inr rfl))).roundTrips rfl
  | .token inner, h => by
    have hinner := roundTrips readable inner h
    exact (isBare_token hinner).roundTrips rfl
  | .precedence level associativity inner, h => by
    simp only [Expression.isExpressible, Bool.and_eq_true, decide_eq_true_eq] at h
    have hinner := roundTrips readable inner h.2
    exact (isBare_precedence associativity h.1.1 h.1.2 hinner).roundTrips rfl
  | .optional inner, h => by
    have hinner := roundTrips readable inner h
    exact (isReadBack_marked readable '?' (by decide) hinner.item rfl).roundTrips rfl
  | .repetition least inner, h => by
    simp only [Expression.isExpressible, Bool.and_eq_true, decide_eq_true_eq] at h
    have hinner := roundTrips readable inner h.2
    match least, h.1 with
    | 0, _ => exact (isReadBack_marked readable '*' (by decide) hinner.item rfl).roundTrips rfl
    | 1, _ => exact (isReadBack_marked readable '+' (by decide) hinner.item rfl).roundTrips rfl
  | .seq items, h => by
    simp only [Expression.isExpressible, Bool.and_eq_true, decide_eq_true_eq] at h
    have hitems := fun e he => (allRoundTrip readable items h.2 e he).item
    exact (isReadBack_seq readable hitems h.1).roundTrips rfl
  | .choice alternatives, h => by
    simp only [Expression.isExpressible, Bool.and_eq_true, decide_eq_true_eq] at h
    have halternatives := fun e he => (allRoundTrip readable alternatives h.2 e he).item
    exact (isReadBack_choice readable halternatives h.1).roundTrips rfl

theorem allRoundTrip (readable : layout.IsReadable) :
    ∀ expressions : List Expression, Expression.areExpressible expressions = true →
      ∀ expression ∈ expressions, RoundTrips layout expression
  | [], _ => by simp
  | first :: rest, h => by
    simp only [Expression.areExpressible, Bool.and_eq_true] at h
    have hfirst := roundTrips readable first h.1
    have hrest := allRoundTrip readable rest h.2
    simpa using ⟨hfirst, hrest⟩

end

-- `(token) ("a" blank())`
example : bodyTokens ⟨Expression.isComposite, Expression.isComposite, true⟩
    (.seq [.reference "token", .seq [.literal "a", .blank]]) =
      [.mark '(', .identifier "token", .mark ')', .mark '(', .string "a", .identifier "blank",
        .mark '(', .mark ')', .mark ')'] := by
  decide

end Expressions

end Syntagm.Notation
