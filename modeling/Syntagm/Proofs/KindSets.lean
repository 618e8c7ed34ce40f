import Mathlib.Data.Finset.Lattice.Fold
import Mathlib.Order.Lattice.Nat
import Syntagm.Proofs.LeastSolution

/-!
# Sets of kinds are finite sets, but for their words

A set of kinds has members (`KindSet.members`), which its list gives once each in ascending order.
Every operation does to the members what the operation of finite sets does, and every question is
answered as it is for the finite set.  So whatever a set was built by (`KindSet.Construction`), it
acts as the finite set built in the same way (`KindSet.Construction.agrees_members`).

**Equality.**  Two sets are the same value if and only if they have the same members and the same
number of words.  Adding a kind and joining sets make the words as many as the greatest member
needs.  An intersection has as many as the shorter one of both lists, be there a member in the last
of them or not, so it can differ from a set with the same members
(`KindSet.Construction.value_ne_disjoint`).
-/

namespace Syntagm

namespace KindSet

/-! ### What the operations do to members -/

@[simp] theorem contains_intersection (first second : KindSet) (kind : Kind) :
    (first.intersection second).contains kind =
      (first.contains kind && second.contains kind) := by
  simp only [contains, intersection, List.getElem?_zipWith]
  cases first.words[kind.index / 64]? <;> cases second.words[kind.index / 64]? <;> simp

theorem contains_foldl_insert (kinds : List Kind) (set : KindSet) (kind : Kind) :
    (kinds.foldl insert set).contains kind = true ↔ set.contains kind = true ∨ kind ∈ kinds := by
  induction kinds generalizing set with
  | nil => simp
  | cons first rest ih => simp [ih, contains_insert, or_assoc]

/-- A word with a bit belongs to a set with a member. -/
theorem any_ne_zero_iff (set : KindSet) :
    set.words.any (· != 0#64) = true ↔ ∃ kind, set.contains kind = true := by
  have hadds : (unionNew ∅ set).2 = set.words.any (· != 0#64) := by
    show addsBit [] set.words = _
    cases set.words <;> rfl
  rw [← hadds, unionNew_snd_iff]
  simp only [contains_empty, and_true]

theorem isEmpty_iff (set : KindSet) : set.isEmpty = true ↔ ∀ kind, set.contains kind = false := by
  have hany := not_congr set.any_ne_zero_iff
  simpa [isEmpty] using hany

theorem intersects_iff (first second : KindSet) : first.intersects second = true ↔
    ∃ kind, first.contains kind = true ∧ second.contains kind = true := by
  refine (first.intersection second).any_ne_zero_iff.trans ?_
  simp only [contains_intersection, Bool.and_eq_true]

/-! ### The list of the members -/

theorem mem_bits {word : BitVec 64} {position : Nat} :
    position ∈ bits word ↔ word.getLsbD position = true := by
  rw [bits, List.mem_filter, List.mem_range, and_iff_right_iff_imp]
  exact BitVec.lt_of_getLsbD

/-- The kinds of words whose first kind is `base`: the place of a kind is counted from there. -/
theorem mem_kindsFrom {base : Nat} {words : List (BitVec 64)} {kind : Kind} :
    kind ∈ kindsFrom base words ↔ base ≤ kind.index ∧
      (words[(kind.index - base) / 64]?).any (·.getLsbD ((kind.index - base) % 64)) = true := by
  induction words generalizing base with
  | nil => simp [kindsFrom]
  | cons word rest ih =>
    rw [kindsFrom, List.mem_append, ih, List.mem_map]
    by_cases hnear : kind.index < base + 64
    · -- the kind can only be one of the first word
      have hplace : (kind.index - base) / 64 = 0 := by omega
      have hbit : (kind.index - base) % 64 = kind.index - base := by omega
      rw [hplace, hbit, List.getElem?_cons_zero, Option.any_some]
      constructor
      · rintro (⟨position, hposition, rfl⟩ | ⟨hfar, -⟩)
        · exact ⟨Nat.le_add_right _ _, by simpa using mem_bits.mp hposition⟩
        · omega
      · rintro ⟨hle, hbit⟩
        exact .inl ⟨_, mem_bits.mpr hbit, congrArg Kind.mk (by omega)⟩
    · have hplace : (kind.index - base) / 64 = (kind.index - (base + 64)) / 64 + 1 := by omega
      have hbit : (kind.index - base) % 64 = (kind.index - (base + 64)) % 64 := by omega
      rw [hplace, hbit, List.getElem?_cons_succ]
      constructor
      · rintro (⟨position, hposition, rfl⟩ | ⟨-, hrest⟩)
        · exact absurd (Nat.add_lt_add_left (BitVec.lt_of_getLsbD (mem_bits.mp hposition)) base)
            hnear
        · exact ⟨by omega, hrest⟩
      · rintro ⟨-, hrest⟩
        exact .inr ⟨by omega, hrest⟩

theorem mem_toList {set : KindSet} {kind : Kind} :
    kind ∈ set.toList ↔ set.contains kind = true := by
  rw [toList, mem_kindsFrom, Nat.sub_zero, contains, and_iff_right (Nat.zero_le _)]

theorem pairwise_kindsFrom (base : Nat) (words : List (BitVec 64)) :
    (kindsFrom base words).Pairwise (·.index < ·.index) := by
  induction words generalizing base with
  | nil => exact .nil
  | cons word rest ih =>
    refine List.pairwise_append.mpr ⟨?_, ih (base + 64), fun first hfirst second hsecond => ?_⟩
    · rw [List.pairwise_map]
      exact (List.pairwise_lt_range.filter _).imp (Nat.add_lt_add_left · base)
    · obtain ⟨position, hposition, rfl⟩ := List.mem_map.mp hfirst
      exact Nat.lt_of_lt_of_le
        (Nat.add_lt_add_left (BitVec.lt_of_getLsbD (mem_bits.mp hposition)) base)
        (mem_kindsFrom.mp hsecond).1

/-- **The list of a set ascends**, so it has every member once. -/
theorem pairwise_toList (set : KindSet) : set.toList.Pairwise (·.index < ·.index) :=
  pairwise_kindsFrom 0 set.words

theorem nodup_toList (set : KindSet) : set.toList.Nodup :=
  set.pairwise_toList.imp fun hlt heq => Nat.ne_of_lt hlt (congrArg Kind.index heq)

theorem length_kindsFrom (base : Nat) (words : List (BitVec 64)) :
    (kindsFrom base words).length = (words.flatMap bits).length := by
  induction words generalizing base with
  | nil => rfl
  | cons word rest ih => simp [kindsFrom, ih]

theorem length_toList (set : KindSet) : set.toList.length = set.size :=
  length_kindsFrom 0 set.words

/-! ### Members -/

/-- The members of a set. -/
def members (set : KindSet) : Finset Kind := set.toList.toFinset

@[simp] theorem mem_members {set : KindSet} {kind : Kind} :
    kind ∈ set.members ↔ set.contains kind = true := by
  rw [members, List.mem_toFinset, mem_toList]

theorem card_members (set : KindSet) : set.members.card = set.size := by
  rw [members, List.toFinset_card_of_nodup set.nodup_toList, length_toList]

theorem isEmpty_iff_members (set : KindSet) : set.isEmpty = true ↔ set.members = ∅ := by
  simp [isEmpty_iff, Finset.eq_empty_iff_forall_notMem]

theorem intersects_iff_members (first second : KindSet) :
    first.intersects second = true ↔ (first.members ∩ second.members).Nonempty := by
  simp [intersects_iff, Finset.Nonempty]

theorem insertNew_snd_iff (set : KindSet) (kind : Kind) :
    (set.insertNew kind).2 = true ↔ kind ∉ set.members := by
  simp [insertNew]

theorem unionNew_snd_iff_members (first second : KindSet) :
    (first.unionNew second).2 = true ↔ ¬ second.members ⊆ first.members := by
  simp [unionNew_snd_iff, Finset.subset_iff]

/-! ### Words -/

/-- The number of words that a kind needs. -/
def wordsFor (kind : Kind) : Nat := kind.index / 64 + 1

theorem length_insertBit (position : Nat) (words : List (BitVec 64)) (index : Nat) :
    (insertBit position words index).length = max words.length (index + 1) := by
  induction words, index using insertBit.induct with
  | case1 => rfl
  | case2 index ih => simp [insertBit, ih]
  | case3 word rest => simp [insertBit]
  | case4 word rest index ih => simp [insertBit, ih, Nat.add_max_add_right]

theorem length_insert (set : KindSet) (kind : Kind) :
    (set.insert kind).words.length = max set.words.length (wordsFor kind) :=
  length_insertBit ..

theorem length_foldl_insert (kinds : List Kind) (set : KindSet) :
    (kinds.foldl insert set).words.length = max set.words.length (kinds.toFinset.sup wordsFor) := by
  induction kinds generalizing set with
  | nil => simp
  | cons first rest ih =>
    rw [List.foldl_cons, ih, length_insert, List.toFinset_cons, Finset.sup_insert, max_assoc]

theorem length_unionWords (first second : List (BitVec 64)) :
    (unionWords first second).length = max first.length second.length := by
  induction first, second using unionWords.induct with
  | case1 second => simp [unionWords]
  | case2 first _ => simp [unionWords]
  | case3 x first y second ih => simp [unionWords, ih, Nat.add_max_add_right]

/-- **Equality**: the same members, and the same number of words. -/
theorem eq_iff_members (first second : KindSet) : first = second ↔
    first.members = second.members ∧ first.words.length = second.words.length := by
  refine ⟨fun h => h ▸ ⟨rfl, rfl⟩, fun ⟨hmembers, hlength⟩ => ?_⟩
  obtain ⟨words⟩ := first
  obtain ⟨others⟩ := second
  congr 1
  refine List.ext_getElem hlength fun place hplace hplace' => ?_
  refine BitVec.eq_of_getLsbD_eq fun bit hbit => ?_
  -- the kind of this bit is a member of both sets or of none
  have hkind := Finset.ext_iff.mp hmembers ⟨64 * place + bit⟩
  simp only [mem_members, contains, Nat.mul_add_div (by decide : 0 < 64), Nat.mul_add_mod,
    Nat.div_eq_of_lt hbit, Nat.mod_eq_of_lt hbit, Nat.add_zero, List.getElem?_eq_getElem hplace,
    List.getElem?_eq_getElem hplace', Option.any_some] at hkind
  exact Bool.eq_iff_iff.mpr hkind

/-! ### Constructions -/

/-- **Ways to build a set of kinds.** -/
inductive Construction where
  | empty
  | single (kind : Kind)
  | ofList (kinds : List Kind)
  | insert (set : Construction) (kind : Kind)
  | union (first second : Construction)
  | intersection (first second : Construction)
  | clear (set : Construction)

namespace Construction

/-- The set that is built. -/
def value : Construction → KindSet
  | .empty => ∅
  | .single kind => KindSet.single kind
  | .ofList kinds => KindSet.ofList kinds
  | .insert set kind => (set.value.insertNew kind).1
  | .union first second => (first.value.unionNew second.value).1
  | .intersection first second => first.value.intersection second.value
  | .clear _ => ∅

/-- The finite set that is built in the same way. -/
def members : Construction → Finset Kind
  | .empty => ∅
  | .single kind => {kind}
  | .ofList kinds => kinds.toFinset
  | .insert set kind => Insert.insert kind set.members
  | .union first second => first.members ∪ second.members
  | .intersection first second => first.members ∩ second.members
  | .clear _ => ∅

/-- The number of words of the set that is built. -/
def width : Construction → Nat
  | .empty => 0
  | .single kind => wordsFor kind
  | .ofList kinds => kinds.toFinset.sup wordsFor
  | .insert set kind => max set.width (wordsFor kind)
  | .union first second => max first.width second.width
  | .intersection first second => min first.width second.width
  | .clear _ => 0

/-- Whether the set is built without an intersection. -/
def isJoined : Construction → Bool
  | .empty | .single _ | .ofList _ | .clear _ => true
  | .insert set _ => set.isJoined
  | .union first second => first.isJoined && second.isJoined
  | .intersection _ _ => false

/-- **What is built has the members of the finite set.** -/
theorem members_value (construction : Construction) :
    construction.value.members = construction.members := by
  induction construction with
  | empty | clear => rfl
  | single kind => ext; simp [value, members]
  | ofList kinds =>
    ext other
    rw [mem_members, value, KindSet.ofList, contains_foldl_insert, members, List.mem_toFinset]
    exact or_iff_right (by simp [contains, KindSet.empty])
  | insert set kind ih =>
    ext other
    simp [value, members, insertNew, contains_insert, ← ih, or_comm]
  | union first second ihFirst ihSecond =>
    ext other
    rw [mem_members, value, members, ← ihFirst, ← ihSecond, Finset.mem_union, mem_members,
      mem_members, ← Bool.or_eq_true_iff, ← contains_union]
    rfl
  | intersection first second ihFirst ihSecond =>
    ext other
    simp [value, members, ← ihFirst, ← ihSecond]

theorem length_value (construction : Construction) :
    construction.value.words.length = construction.width := by
  induction construction with
  | empty | clear => rfl
  | single kind => exact (length_insert ..).trans (Nat.zero_max _)
  | ofList kinds => exact (length_foldl_insert ..).trans (Nat.zero_max _)
  | insert set kind ih => exact (length_insert ..).trans (by rw [ih, width])
  | union first second ihFirst ihSecond =>
    exact (length_unionWords ..).trans (by rw [ihFirst, ihSecond, width])
  | intersection first second ihFirst ihSecond =>
    exact List.length_zipWith.trans (by rw [ihFirst, ihSecond, width])

/-- Without an intersection there are as many words as the greatest member needs. -/
theorem width_of_isJoined {construction : Construction} (joined : construction.isJoined = true) :
    construction.width = construction.members.sup wordsFor := by
  induction construction with
  | empty | clear => rfl
  | single kind => exact Finset.sup_singleton.symm
  | ofList kinds => rfl
  | insert set kind ih =>
    rw [width, members, Finset.sup_insert, ih joined, max_comm]
  | union first second ihFirst ihSecond =>
    obtain ⟨hfirst, hsecond⟩ := Bool.and_eq_true_iff.mp joined
    rw [width, members, Finset.sup_union, ihFirst hfirst, ihSecond hsecond]
  | intersection => cases joined

theorem value_eq_iff (first second : Construction) : first.value = second.value ↔
    first.members = second.members ∧ first.width = second.width := by
  rw [eq_iff_members, members_value, members_value, length_value, length_value]

/-- **Sets of kinds act as finite sets.**  For any two sets, whatever they were built by, every
question, every report on what an operation changed, and the list of the members agree with the
finite sets that are built in the same way.

They are equal, and what is computed from their words is the same, if and only if they have the same
members and the same number of words.  How many words these are shows in how a set was built.
Without an intersection they are as many as the greatest member needs, so such sets are equal if and
only if they have the same members. -/
theorem agrees_members (first second : Construction) (kind : Kind) :
    let set := first.value
    let other := second.value
    (set.contains kind = true ↔ kind ∈ first.members) ∧
    set.size = first.members.card ∧
    (set.isEmpty = true ↔ first.members = ∅) ∧
    (set.intersects other = true ↔ (first.members ∩ second.members).Nonempty) ∧
    ((set.insertNew kind).2 = true ↔ kind ∉ first.members) ∧
    ((set.unionNew other).2 = true ↔ ¬ second.members ⊆ first.members) ∧
    set.toList.Pairwise (·.index < ·.index) ∧
    (∀ listed, listed ∈ set.toList ↔ listed ∈ first.members) ∧
    (set = other ↔ first.members = second.members ∧ first.width = second.width) ∧
    ((∀ digest : List (BitVec 64) → UInt64, digest set.words = digest other.words) ↔
      first.members = second.members ∧ first.width = second.width) ∧
    (first.isJoined = true → second.isJoined = true →
      (set = other ↔ first.members = second.members)) := by
  intro set other
  have hfirst : set.members = first.members := first.members_value
  have hsecond : other.members = second.members := second.members_value
  rw [← hfirst, ← hsecond]
  have heq : set = other ↔ set.members = other.members ∧ first.width = second.width := by
    rw [hfirst, hsecond]
    exact value_eq_iff first second
  refine ⟨mem_members.symm, set.card_members.symm, set.isEmpty_iff_members,
    set.intersects_iff_members other, set.insertNew_snd_iff kind,
    set.unionNew_snd_iff_members other, set.pairwise_toList, fun listed => ?_, heq, ?_,
    fun hjoined hjoined' => ?_⟩
  · rw [mem_toList, mem_members]
  · rw [← heq]
    refine ⟨fun digests => ?_, fun same digest => same ▸ rfl⟩
    -- one digest tells the words of the first set from all others
    have hdigest := digests fun words => if words = set.words then 1 else 0
    by_contra hne
    have hwords : ¬ other.words = set.words := fun h => hne (congrArg KindSet.mk h.symm)
    simp [hwords] at hdigest
  · rw [heq, width_of_isJoined hjoined, width_of_isJoined hjoined', ← hfirst, ← hsecond,
      and_iff_left_iff_imp]
    exact fun same => congrArg (Finset.sup · wordsFor) same

/-- The same two kinds in two words, put in at once and joined in turn. -/
theorem agrees_members_pair :
    let first := Construction.ofList [⟨70⟩, ⟨1⟩]
    let second := Construction.union (.insert (.single ⟨1⟩) ⟨1⟩) (.single ⟨70⟩)
    first.isJoined = true ∧ second.isJoined = true ∧ first.members = second.members ∧
      first.value = second.value := by
  intro first second
  have hmembers : first.members = second.members := by decide
  have hagrees := agrees_members first second ⟨1⟩
  exact ⟨rfl, rfl, hmembers, (hagrees.2.2.2.2.2.2.2.2.2.2 rfl rfl).mpr hmembers⟩

/-- **Two sets without a member that differ**: the intersection of two sets that share no kind
keeps words without a bit, and the empty set has none. -/
theorem value_ne_disjoint :
    let first := Construction.intersection (.single ⟨64⟩) (.single ⟨65⟩)
    let second := Construction.empty
    first.members = second.members ∧ first.value ≠ second.value ∧
      ∃ digest : List (BitVec 64) → UInt64,
        digest first.value.words ≠ digest second.value.words := by
  intro first second
  exact ⟨by decide, by decide, fun words => words.length.toUInt64, by decide⟩

end Construction

end KindSet

end Syntagm
