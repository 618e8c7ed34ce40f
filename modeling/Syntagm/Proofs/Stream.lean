import Mathlib.Data.List.Chain
import Mathlib.Data.List.TakeWhile
import Syntagm.Proofs.Locality

/-!
# The shape of streams

A stream goes through the significant tokens of its source in order.  At each of them it takes
the token, puts one in front of it, or leaves out a stretch that begins there, which then
waits in front of what comes next (`Source.Lays`).  What holds of every stream is shown by
induction over these steps.

**Comparing streams.**  A token of a stream is told by its kind, its place and what stands in
front of it, so tokens that count as the same look the same to the engine.  A stretch of
tokens that no repair has touched is the same stretch of the stream without repairs.
-/

namespace Syntagm

/-- As far as two lists are compared and found to agree, both have elements, and these agree. -/
theorem agree_of_lt_takeWhile_zip {α β : Type} {agrees : α × β → Bool} {first : List α}
    {second : List β} {index : Nat}
    (lt : index < ((first.zip second).takeWhile agrees).length) :
    ∃ one two, first[index]? = some one ∧ second[index]? = some two ∧ agrees (one, two) = true := by
  have hpair := List.mem_takeWhile_imp (List.getElem_mem lt)
  have hfront : (first.zip second).takeWhile agrees <+: first.zip second :=
    List.takeWhile_prefix agrees
  have hlt := Nat.lt_of_lt_of_le lt hfront.length_le
  rw [hfront.getElem lt, List.getElem_zip] at hpair
  rw [List.length_zip] at hlt
  exact ⟨_, _, List.getElem?_eq_getElem (by omega), List.getElem?_eq_getElem (by omega), hpair⟩

/-- Whether the kind of what is put in, if anything is, is as required. -/
def Repair.Inserts (allowed : Kind → Prop) : Repair → Prop
  | .skip .. => True
  | .insert _ kind => allowed kind

/-- Whether a repair has made what stands in front of a token. -/
def Lead.isRepair : Lead → Bool
  | .trivia _ => false
  | .skipped .. => true

theorem StreamToken.isRepaired_eq (token : StreamToken) :
    token.isRepaired = (!token.isReal || token.lead.any Lead.isRepair) := by
  rfl

namespace Source

variable (source : Source)

/-- **The ways of a stream through repairs**, from a significant token on: `pending` waits in front
of it.  Up to the place of the next repair the stream takes tokens, and a repair at an earlier place
is dropped. -/
inductive Walks : Nat → List Lead → List Repair → List StreamToken → Prop where
  | stop {index pending repairs} (past : source.size < index) : Walks index pending repairs []
  | take {index pending repairs rest} (le : index ≤ source.size)
      (early : ∀ repair, repairs.head? = some repair → index < repair.site)
      (tail : Walks (index + 1) [] repairs rest) :
    Walks index pending repairs (source.realToken index pending :: rest)
  | drop {index pending repair repairs rest} (le : index ≤ source.size) (late : repair.site < index)
      (tail : Walks index pending repairs rest) : Walks index pending (repair :: repairs) rest
  | putIn {index pending kind repairs rest} (le : index ≤ source.size)
      (tail : Walks index [] repairs rest) :
    Walks index pending (.insert index kind :: repairs)
      (source.insertedToken index kind pending :: rest)
  | leaveOut {index pending stop repairs rest} (lt : index < stop) (inside : index < source.size)
      (tail : Walks (min stop source.size)
        (pending ++ [.trivia index, .skipped index (min stop source.size)]) repairs rest) :
    Walks index pending (.skip index stop :: repairs) rest
  | leaveNothing {index pending stop repairs rest} (le : index ≤ source.size)
      (nothing : stop ≤ index ∨ index = source.size) (tail : Walks index pending repairs rest) :
    Walks index pending (.skip index stop :: repairs) rest

variable {source} in
theorem walks_streamFrom (index : Nat) (pending : List Lead) (repairs : List Repair) :
    source.Walks index pending repairs (source.streamFrom index pending repairs) := by
  induction index, pending, repairs using streamFrom.induct source with
  | case1 index pending repairs outside =>
    rw [streamFrom.eq_def, if_pos outside]
    exact .stop outside
  | case2 index pending inside site kind rest before ih =>
    rw [streamFrom, if_neg inside]
    simp only [if_pos before]
    refine .take (by omega) ?_ ih
    rintro _ ⟨⟩
    exact before
  | case3 index pending inside site kind rest before behind ih =>
    rw [streamFrom, if_neg inside]
    simp only [if_neg before, if_pos behind]
    exact .drop (by omega) behind ih
  | case4 index pending inside site kind rest before behind ih =>
    obtain rfl : site = index := by omega
    rw [streamFrom, if_neg inside]
    simp only [Nat.lt_irrefl, if_false]
    exact .putIn (by omega) ih
  | case5 index pending inside start stop rest before ih =>
    rw [streamFrom, if_neg inside]
    simp only [if_pos before]
    refine .take (by omega) ?_ ih
    rintro _ ⟨⟩
    exact before
  | case6 index pending inside start stop rest before here stop' ih =>
    rw [streamFrom, if_neg inside]
    simp only [if_neg before, if_pos here]
    obtain ⟨rfl, hstop, hlt⟩ := here
    exact .leaveOut hstop hlt ih
  | case7 index pending inside start stop rest before elsewhere ih =>
    rw [streamFrom, if_neg inside]
    simp only [if_neg before, if_neg elsewhere]
    rcases Nat.lt_or_eq_of_le (Nat.not_lt.mp before) with hlt | rfl
    · exact .drop (by omega) hlt ih
    · exact .leaveNothing (by omega) (by omega) ih
  | case8 index pending inside ih =>
    rw [streamFrom, if_neg inside]
    exact .take (by omega) (fun _ hnone => nomatch hnone) ih

/-- **The ways of a stream** from a significant token on: `pending` waits in front of it, and
the kinds that are put in are `allowed`. -/
inductive Lays (allowed : Kind → Prop) : Nat → List Lead → List StreamToken → Prop where
  | stop : Lays allowed (source.size + 1) [] []
  | take {index pending rest} (le : index ≤ source.size) (tail : Lays allowed (index + 1) [] rest) :
    Lays allowed index pending (source.realToken index pending :: rest)
  | putIn {index pending rest kind} (le : index ≤ source.size) (fits : allowed kind)
      (tail : Lays allowed index [] rest) :
    Lays allowed index pending (source.insertedToken index kind pending :: rest)
  | leaveOut {index pending rest stop} (lt : index < stop) (le : stop ≤ source.size)
      (tail : Lays allowed stop (pending ++ [.trivia index, .skipped index stop]) rest) :
    Lays allowed index pending rest

variable {source} {allowed : Kind → Prop}

/-- Whatever the repairs are, a stream is laid in one of the ways there are. -/
theorem Walks.lays {index : Nat} {pending : List Lead} {repairs : List Repair}
    {tokens : List StreamToken} (h : source.Walks index pending repairs tokens)
    (le : index ≤ source.size + 1) (past : source.size < index → pending = [])
    (fits : ∀ repair ∈ repairs, repair.Inserts allowed) :
    source.Lays allowed index pending tokens := by
  induction h with
  | @stop index _ _ outside =>
    obtain rfl := past outside
    obtain rfl : index = source.size + 1 := by omega
    exact .stop
  | take inside _ _ ih => exact .take inside (ih (by omega) (fun _ => rfl) fits)
  | drop _ _ _ ih => exact ih le past (List.forall_mem_cons.mp fits).2
  | putIn inside _ ih =>
    obtain ⟨hfits, hothers⟩ := List.forall_mem_cons.mp fits
    exact .putIn inside hfits (ih le (fun _ => rfl) hothers)
  | leaveOut _ _ _ ih =>
    exact .leaveOut (by omega) (by omega)
      (ih (by omega) (by omega) (List.forall_mem_cons.mp fits).2)
  | leaveNothing _ _ _ ih => exact ih le past (List.forall_mem_cons.mp fits).2

theorem lays_streamFrom (index : Nat) (pending : List Lead) (repairs : List Repair)
    (le : index ≤ source.size + 1) (past : source.size < index → pending = [])
    (fits : ∀ repair ∈ repairs, repair.Inserts allowed) :
    source.Lays allowed index pending (source.streamFrom index pending repairs) :=
  (walks_streamFrom index pending repairs).lays le past fits

theorem lays_stream {repairs : List Repair}
    (fits : ∀ repair ∈ repairs, repair.Inserts allowed) :
    source.Lays allowed 0 [] (source.stream repairs).toList :=
  lays_streamFrom 0 [] repairs (Nat.zero_le _) (fun _ => rfl) fits

/-- Repairs that may put in anything. -/
theorem lays_stream_any (source : Source) (repairs : List Repair) :
    source.Lays (fun _ => True) 0 [] (source.stream repairs).toList :=
  lays_stream fun repair _ => by cases repair <;> trivial

/-! ### Single tokens -/

/-- What an engine sees of a token is what its place and the repairs around it say. -/
structure Holds (source : Source) (token : StreamToken) : Prop where
  leading : token.leading = source.leading token.lead
  element : token.element =
    if token.isReal then source.element? token.site else some (missingNode token.kind)

theorem Lays.holds {index : Nat} {pending : List Lead} {tokens : List StreamToken}
    (h : source.Lays allowed index pending tokens) : ∀ token ∈ tokens, source.Holds token := by
  induction h with
  | stop => exact fun token h => nomatch h
  | take _ _ ih => exact List.forall_mem_cons.mpr ⟨⟨rfl, rfl⟩, ih⟩
  | putIn _ _ _ ih => exact List.forall_mem_cons.mpr ⟨⟨rfl, rfl⟩, ih⟩
  | leaveOut _ _ _ ih => exact ih

/-- **Tokens that count as the same look the same.** -/
theorem Holds.view_eq {first second : StreamToken} (hf : source.Holds first)
    (hs : source.Holds second) (same : first.sameAs second) : first.view = second.view := by
  simp only [StreamToken.sameAs, Bool.and_eq_true, beq_iff_eq] at same
  obtain ⟨⟨⟨hkind, hsite⟩, hreal⟩, hlead⟩ := same
  simp only [StreamToken.view, hf.leading, hs.leading, hf.element, hs.element, hkind, hsite, hreal,
    hlead]

/-- **Streams look the same as far as they are the same.** -/
theorem sameStretch_commonLength (repairs others : List Repair) :
    SameStretch (source.stream repairs) (source.stream others) 0 0
      (commonLength (source.stream repairs) (source.stream others)) := by
  intro index hlt
  obtain ⟨one, two, hone, htwo, hsame⟩ := agree_of_lt_takeWhile_zip hlt
  rw [Array.getElem?_toList] at hone htwo
  have hview := ((lays_stream_any source repairs).holds one
    (Array.mem_toList_iff.mpr (Array.mem_of_getElem? hone))).view_eq
    ((lays_stream_any source others).holds two
      (Array.mem_toList_iff.mpr (Array.mem_of_getElem? htwo))) hsame
  rw [Nat.zero_add, hone, htwo, Option.map_some, hview, Option.map_some]

/-! ### The end of a stream -/

/-- **A stream ends with the end of the input.**  All other tokens are significant ones of the
source, or put in. -/
theorem Lays.ends {index : Nat} {pending : List Lead} {tokens : List StreamToken}
    (h : source.Lays allowed index pending tokens) (start : index ≤ source.size) :
    ∃ front waiting, tokens = front ++ [source.realToken source.size waiting] ∧
      ∀ token ∈ front, allowed token.kind ∨
        ∃ place, place < source.size ∧ token.kind = source.kind place := by
  induction h with
  | stop => omega
  | @take index pending rest le tail ih =>
    rcases Nat.lt_or_ge index source.size with hlt | hge
    · obtain ⟨front, waiting, heq, hfront⟩ := ih hlt
      exact ⟨_ :: front, waiting, by rw [heq, List.cons_append],
        List.forall_mem_cons.mpr ⟨.inr ⟨index, hlt, rfl⟩, hfront⟩⟩
    · obtain rfl : index = source.size := by omega
      cases tail with
      | stop => exact ⟨[], pending, rfl, fun _ h => (nomatch h)⟩
      | take le _ => omega
      | putIn le _ _ => omega
      | leaveOut lt le _ => omega
  | putIn le fits _ ih =>
    obtain ⟨front, waiting, heq, hfront⟩ := ih le
    exact ⟨_ :: front, waiting, by rw [heq, List.cons_append],
      List.forall_mem_cons.mpr ⟨.inl fits, hfront⟩⟩
  | leaveOut _ le _ ih => exact ih le

@[simp] theorem kind_size : source.kind source.size = Kind.endOfInput := by
  simp [kind, size]

theorem stream_ends (repairs : List Repair) :
    ∃ token, (source.stream repairs).back? = some token ∧ token.kind = Kind.endOfInput := by
  obtain ⟨front, waiting, heq, -⟩ :=
    (lays_stream_any source repairs).ends (Nat.zero_le _)
  refine ⟨source.realToken source.size waiting, ?_, kind_size⟩
  rw [← Array.getLast?_toList, heq, List.getLast?_concat]

/-! ### Stretches without repairs -/

/-- What waits is nothing, or something is left out in it. -/
def Settled (pending : List Lead) : Prop := pending = [] ∨ pending.any Lead.isRepair = true

theorem Settled.leaveOut (pending : List Lead) (start stop : Nat) :
    Settled (pending ++ [.trivia start, .skipped start stop]) := by
  refine .inr ?_
  simp [Lead.isRepair]

theorem isRepaired_realToken (index : Nat) (pending : List Lead) :
    (source.realToken index pending).isRepaired = pending.any Lead.isRepair := by
  simp [StreamToken.isRepaired_eq, realToken, Lead.isRepair]

theorem Settled.eq_nil {pending : List Lead} (h : Settled pending) {index : Nat}
    (plain : (source.realToken index pending).isRepaired = false) : pending = [] := by
  rw [isRepaired_realToken] at plain
  exact h.resolve_right (by simp [plain])

theorem Lays.head_plain {index : Nat} {pending : List Lead} {tokens : List StreamToken}
    (h : source.Lays allowed index pending tokens) (settled : Settled pending)
    {token : StreamToken} (head : tokens.head? = some token) (plain : token.isRepaired = false) :
    pending = [] ∧ token = source.realToken index [] := by
  induction h with
  | stop => cases head
  | take =>
    obtain rfl := Option.some.inj head
    obtain rfl := settled.eq_nil plain
    exact ⟨rfl, rfl⟩
  | putIn =>
    obtain rfl := Option.some.inj head
    cases plain
  | leaveOut _ _ _ ih =>
    -- what is left out waits for the next token, which then is not a plain one
    obtain ⟨hnil, -⟩ := ih (.leaveOut ..) head
    simp at hnil

/-- A token that no repair has touched is a token of the source, with its trivia. -/
theorem Lays.plain {index : Nat} {pending : List Lead} {tokens : List StreamToken}
    (h : source.Lays allowed index pending tokens) (settled : Settled pending) :
    ∀ token ∈ tokens, token.isRepaired = false →
      token.site ≤ source.size ∧ token = source.realToken token.site [] := by
  induction h with
  | stop => exact fun token h => nomatch h
  | take le _ ih =>
    refine List.forall_mem_cons.mpr ⟨fun plain => ?_, ih (.inl rfl)⟩
    obtain rfl := settled.eq_nil plain
    exact ⟨le, rfl⟩
  | putIn _ _ _ ih => exact List.forall_mem_cons.mpr ⟨fun plain => (nomatch plain), ih (.inl rfl)⟩
  | leaveOut _ _ _ ih => exact ih (.leaveOut ..)

/-- Of two tokens that follow each other and that no repair has touched, the second one is
the next token of the source. -/
theorem Lays.neighbours {index : Nat} {pending : List Lead} {tokens : List StreamToken}
    (h : source.Lays allowed index pending tokens) (settled : Settled pending) :
    tokens.IsChain fun first second =>
      first.isRepaired = false → second.isRepaired = false → second.site = first.site + 1 := by
  induction h with
  | stop => exact .nil
  | take _ tail ih =>
    refine List.isChain_cons.mpr ⟨fun next hnext _ plain => ?_, ih (.inl rfl)⟩
    obtain ⟨-, rfl⟩ := tail.head_plain (.inl rfl) hnext plain
    rfl
  | putIn _ _ _ ih =>
    exact List.isChain_cons.mpr ⟨fun _ _ plain => (nomatch plain), ih (.inl rfl)⟩
  | leaveOut _ _ _ ih => exact ih (.leaveOut ..)

theorem streamFrom_nil (index : Nat) (le : index ≤ source.size + 1) :
    source.streamFrom index [] [] =
      (List.range' index (source.size + 1 - index)).map (source.realToken · []) := by
  induction hcount : source.size + 1 - index generalizing index with
  | zero =>
    rw [streamFrom, if_pos (by omega)]
    rfl
  | succ count ih =>
    rw [streamFrom, if_neg (by omega)]
    simp only [List.range'_succ, List.map_cons]
    rw [ih (index + 1) (by omega) (by omega)]

/-- The stream without repairs. -/
theorem getElem?_stream_nil {index : Nat} (le : index ≤ source.size) :
    (source.stream [])[index]? = some (source.realToken index []) := by
  rw [stream, streamFrom_nil 0 (Nat.zero_le _)]
  simp only [List.getElem?_toArray, List.getElem?_map]
  rw [List.getElem?_range' (by omega)]
  simp

theorem size_stream_nil : (source.stream []).size = source.size + 1 := by
  simp [stream, streamFrom_nil 0 (Nat.zero_le _)]

/-- The tokens of a stretch that no repair has touched follow each other in the source. -/
theorem site_of_plain {repairs : List Repair} {position count : Nat} {first : StreamToken}
    (hfirst : (source.stream repairs)[position]? = some first)
    (plain : ∀ index, index < count → ∀ token,
      (source.stream repairs)[position + index]? = some token → token.isRepaired = false) :
    ∀ index, index < count → ∀ token, (source.stream repairs)[position + index]? = some token →
      token.site = first.site + index := by
  intro index
  induction index with
  | zero =>
    intro _ token htoken
    rw [Nat.add_zero, hfirst] at htoken
    rw [← Option.some.inj htoken, Nat.add_zero]
  | succ index ih =>
    intro hlt token htoken
    have hplain := plain (index + 1) hlt token htoken
    rw [← Nat.add_assoc] at htoken
    obtain ⟨hlen, heq⟩ := Array.getElem?_eq_some_iff.mp htoken
    have hprevious := Array.getElem?_eq_getElem (Nat.lt_of_succ_lt hlen)
    have hsite := ih (by omega) _ hprevious
    have hchain := List.isChain_iff_getElem.mp
      ((lays_stream_any source repairs).neighbours (.inl rfl)) (position + index)
      (by simpa using hlen)
    simp only [Array.getElem_toList, heq] at hchain
    have hnext := hchain (plain index (by omega) _ hprevious) hplain
    rw [hnext, hsite, Nat.add_assoc]

/-- **A stretch that no repair has touched** is a stretch of the stream without repairs. -/
theorem sameStretch_of_plain {repairs : List Repair} {position count : Nat} {first : StreamToken}
    (hfirst : (source.stream repairs)[position]? = some first)
    (fits : position + count ≤ (source.stream repairs).size)
    (plain : ∀ index, index < count → ∀ token,
      (source.stream repairs)[position + index]? = some token → token.isRepaired = false) :
    SameStretch (source.stream repairs) (source.stream []) position first.site count := by
  intro index hlt
  have htoken := Array.getElem?_eq_getElem
    (show position + index < (source.stream repairs).size by omega)
  have hsite := site_of_plain hfirst plain index hlt _ htoken
  obtain ⟨hle, heq⟩ := (lays_stream_any source repairs).plain (.inl rfl) _
    (Array.getElem_mem_toList _) (plain index hlt _ htoken)
  rw [hsite] at hle heq
  rw [htoken, heq, getElem?_stream_nil hle]

end Source

end Syntagm
