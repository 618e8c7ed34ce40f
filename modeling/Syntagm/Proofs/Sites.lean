import Syntagm.Parse.Recovery
import Syntagm.Proofs.Places

/-!
# Where the tokens of a stream lie

Each token of a stream is a significant token or is put in front of one, and that is its site.
Repairs do not change the order of the text: the sites of a stream never decrease
(`Source.Lays.sites`), so a position farther on lies at a later site or at the same one.

**Putting in at the end.**  A token that is put in at the end of the input comes behind all other
repairs and in front of the last token of the stream.  So each position lies where it lay
(`RecoveryScope.siteAt_add_end`), and a failure at the end of the input can only move on there.

**Sites and offsets.**  The tokens of a text are not empty, so later sites start at later offsets
(`Source.start_lt`).
-/

namespace Syntagm

/-! ### Sites of streams -/

namespace Source

variable {source : Source} {allowed : Kind → Prop}

theorem Lays.site_le {index : Nat} {pending : List Lead} {tokens : List StreamToken}
    (h : source.Lays allowed index pending tokens) :
    ∀ token ∈ tokens, index ≤ token.site ∧ token.site ≤ source.size := by
  induction h with
  | stop => exact List.forall_mem_nil _
  | take le _ ih =>
    refine List.forall_mem_cons.mpr ⟨⟨Nat.le_refl _, le⟩, fun token hmem => ?_⟩
    obtain ⟨hlow, hhigh⟩ := ih token hmem
    exact ⟨by omega, hhigh⟩
  | putIn le _ _ ih => exact List.forall_mem_cons.mpr ⟨⟨Nat.le_refl _, le⟩, ih⟩
  | leaveOut lt _ _ ih =>
    intro token hmem
    obtain ⟨hlow, hhigh⟩ := ih token hmem
    exact ⟨by omega, hhigh⟩

/-- **The sites of a stream never decrease.** -/
theorem Lays.sites {index : Nat} {pending : List Lead} {tokens : List StreamToken}
    (h : source.Lays allowed index pending tokens) :
    tokens.Pairwise fun first second => first.site ≤ second.site := by
  induction h with
  | stop => exact .nil
  | take le tail ih =>
    refine List.pairwise_cons.mpr ⟨fun token hmem => ?_, ih⟩
    have hlow := (tail.site_le token hmem).1
    show _ ≤ token.site
    exact Nat.le_of_succ_le hlow
  | putIn _ _ tail ih =>
    exact List.pairwise_cons.mpr ⟨fun token hmem => (tail.site_le token hmem).1, ih⟩
  | leaveOut _ _ _ ih => exact ih

/-- In front of the place of the next repair a stream takes the tokens of the source. -/
theorem streamFrom_of_lt {index : Nat} {pending : List Lead} (repair : Repair)
    (rest : List Repair) (inside : index ≤ source.size) (before : index < repair.site) :
    source.streamFrom index pending (repair :: rest) =
      source.realToken index pending :: source.streamFrom (index + 1) [] (repair :: rest) := by
  cases repair with
  | insert site kind =>
    rw [streamFrom, if_neg (Nat.not_lt.mpr inside)]
    simp only [if_pos (show index < site from before)]
  | skip start stop =>
    rw [streamFrom, if_neg (Nat.not_lt.mpr inside)]
    simp only [if_pos (show index < start from before)]

theorem sites_streamFrom_of_lt {index : Nat} {pending : List Lead} (repair : Repair)
    (rest : List Repair) (inside : index ≤ source.size) (before : index < repair.site) :
    (source.streamFrom index pending (repair :: rest)).map (·.site) =
      index :: (source.streamFrom (index + 1) [] (repair :: rest)).map (·.site) := by
  rw [streamFrom_of_lt repair rest inside before]
  rfl

theorem streamFrom_size_nil (pending : List Lead) :
    source.streamFrom source.size pending [] = [source.realToken source.size pending] := by
  rw [streamFrom, if_neg (Nat.lt_irrefl _), streamFrom, if_pos (Nat.lt_succ_self _)]

/-- **A token that is put in at the end** adds its site to those of the stream. -/
theorem sites_streamFrom_append {index : Nat} {pending : List Lead} {repairs : List Repair}
    (kind : Kind) (le : index ≤ source.size)
    (within : ∀ repair ∈ repairs, repair.site ≤ source.size) :
    (source.streamFrom index pending (repairs ++ [.insert source.size kind])).map (·.site) =
      (source.streamFrom index pending repairs).map (·.site) ++ [source.size] := by
  induction index, pending, repairs using streamFrom.induct source with
  | case1 index pending repairs outside => omega
  | case2 index pending inside site inserted rest before ih =>
    have hsite : site ≤ source.size := within _ List.mem_cons_self
    rw [List.cons_append, sites_streamFrom_of_lt (.insert site inserted) _ le before,
      sites_streamFrom_of_lt (.insert site inserted) _ le before, List.cons_append]
    exact congrArg _ (ih (by omega) within)
  | case5 index pending inside start stop rest before ih =>
    have hsite : start ≤ source.size := within _ List.mem_cons_self
    rw [List.cons_append, sites_streamFrom_of_lt (.skip start stop) _ le before,
      sites_streamFrom_of_lt (.skip start stop) _ le before, List.cons_append]
    exact congrArg _ (ih (by omega) within)
  -- a repair that is dropped
  | case3 index pending inside site inserted rest before behind ih =>
    have hstep (more : List Repair) :
        source.streamFrom index pending (.insert site inserted :: more) =
          source.streamFrom index pending more := by
      rw [streamFrom, if_neg inside]
      simp only [if_neg before, if_pos behind]
    rw [List.cons_append, hstep, hstep]
    exact ih le (List.forall_mem_of_forall_mem_cons within)
  | case7 index pending inside start stop rest before elsewhere ih =>
    have hstep (more : List Repair) :
        source.streamFrom index pending (.skip start stop :: more) =
          source.streamFrom index pending more := by
      rw [streamFrom, if_neg inside]
      simp only [if_neg before, if_neg elsewhere]
    rw [List.cons_append, hstep, hstep]
    exact ih le (List.forall_mem_of_forall_mem_cons within)
  -- a repair at this place
  | case4 index pending inside site inserted rest before behind ih =>
    have hstep (more : List Repair) :
        source.streamFrom index pending (.insert site inserted :: more) =
          source.insertedToken site inserted pending :: source.streamFrom index [] more := by
      rw [streamFrom, if_neg inside]
      simp only [if_neg before, if_neg behind]
    rw [List.cons_append, hstep, hstep, List.map_cons, List.map_cons, List.cons_append]
    exact congrArg _ (ih le (List.forall_mem_of_forall_mem_cons within))
  | case6 index pending inside start stop rest before here stop' ih =>
    have hstep (more : List Repair) :
        source.streamFrom index pending (.skip start stop :: more) =
          source.streamFrom stop' (pending ++ [.trivia index, .skipped index stop']) more := by
      rw [streamFrom, if_neg inside]
      simp only [if_neg before, if_pos here]
      rfl
    rw [List.cons_append, hstep, hstep]
    exact ih (by omega) (List.forall_mem_of_forall_mem_cons within)
  -- no other repair is left
  | case8 index pending inside ih =>
    rcases Nat.lt_or_eq_of_le le with hlt | rfl
    · have hnil : source.streamFrom index pending [] =
          source.realToken index pending :: source.streamFrom (index + 1) [] [] := by
        rw [streamFrom, if_neg inside]
      rw [List.nil_append, sites_streamFrom_of_lt (.insert source.size kind) _ le hlt, hnil,
        List.map_cons, List.cons_append]
      exact congrArg _ (ih hlt within)
    · rw [List.nil_append, streamFrom, if_neg inside]
      simp only [Nat.lt_irrefl, if_false, streamFrom_size_nil, List.map_cons]
      rfl

/-- The stream of repairs behind each other, all of them at the end of the input or before. -/
theorem sites_stream_append {repairs : List Repair} (kind : Kind)
    (within : ∀ repair ∈ repairs, repair.site ≤ source.size) :
    (source.stream (repairs ++ [.insert source.size kind])).toList.map (·.site) =
      (source.stream repairs).toList.map (·.site) ++ [source.size] :=
  sites_streamFrom_append kind (Nat.zero_le _) within

end Source

/-! ### Repairs in order -/

namespace Repair

/-- **Repairs in order**, none behind the end of the input. -/
structure Placed (size : Nat) (repairs : List Repair) : Prop where
  sorted : repairs.Pairwise fun first second => first.site ≤ second.site
  within : ∀ repair ∈ repairs, repair.site ≤ size

theorem Placed.nil (size : Nat) : Placed size [] :=
  ⟨.nil, List.forall_mem_nil _⟩

theorem Placed.add {size : Nat} {repairs more : List Repair} (h : Placed size repairs)
    (within : ∀ repair ∈ more, repair.site ≤ size) : Placed size (Repair.add repairs more) where
  sorted := by
    have hsorted := List.pairwise_mergeSort
      (fun (one two three : Repair) (hone : decide (one.site ≤ two.site) = true)
        (htwo : decide (two.site ≤ three.site) = true) => by
          simp only [decide_eq_true_eq] at *
          omega)
      (fun one two => by
        simp only [Bool.or_eq_true, decide_eq_true_eq]
        omega) (repairs ++ more)
    exact hsorted.imp of_decide_eq_true
  within repair hmem := by
    rcases List.mem_append.mp (List.mem_mergeSort.mp hmem) with hmem | hmem
    · exact h.within repair hmem
    · exact within repair hmem

/-- A repair at the end of the input comes behind all others. -/
theorem Placed.add_end {size : Nat} {repairs : List Repair} (h : Placed size repairs)
    (kind : Kind) : Repair.add repairs [.insert size kind] = repairs ++ [.insert size kind] := by
  refine List.mergeSort_of_pairwise ?_
  refine List.pairwise_append.mpr ⟨?_, List.pairwise_singleton _ _, ?_⟩
  · exact h.sorted.imp decide_eq_true
  · intro repair hmem last hlast
    obtain rfl := List.mem_singleton.mp hlast
    exact decide_eq_true (h.within repair hmem)

/-- How many tokens repairs put in front of a token. -/
def insertionsAt (repairs : List Repair) (place : Nat) : Nat :=
  repairs.countP fun repair =>
    match repair with
    | .insert site _ => site = place
    | .skip .. => false

theorem insertionsAt_add (repairs more : List Repair) (place : Nat) :
    insertionsAt (Repair.add repairs more) place =
      insertionsAt repairs place + insertionsAt more place := by
  rw [insertionsAt, Repair.add, (List.mergeSort_perm _ _).countP_eq, List.countP_append]
  rfl

@[simp] theorem insertionsAt_nil (place : Nat) : insertionsAt [] place = 0 := rfl

@[simp] theorem insertionsAt_skip (start stop : Nat) (rest : List Repair) (place : Nat) :
    insertionsAt (.skip start stop :: rest) place = insertionsAt rest place :=
  List.countP_cons_of_neg Bool.false_ne_true

@[simp] theorem insertionsAt_insert (site : Nat) (kind : Kind) (rest : List Repair)
    (place : Nat) : insertionsAt (.insert site kind :: rest) place =
      insertionsAt rest place + if site = place then 1 else 0 := by
  rw [insertionsAt, List.countP_cons]
  simp only [decide_eq_true_eq]
  rfl

end Repair

/-! ### Sites of positions -/

namespace RecoveryScope

variable {scope : RecoveryScope} {repairs : List Repair} {state after : RecoveryState}

theorem canInsert_eq (repairs : List Repair) (site : Nat) :
    scope.canInsert repairs site =
      decide (Repair.insertionsAt repairs site < scope.options.maxInsertions) :=
  rfl

theorem siteAt_le (tokens : state.tokens = scope.source.stream repairs) (position : Nat) :
    scope.siteAt state position ≤ scope.source.size := by
  unfold siteAt
  cases htoken : state.tokens[position]? with
  | none => exact Nat.le_refl _
  | some token =>
    rw [tokens] at htoken
    exact ((Source.lays_stream_any scope.source repairs).site_le token
      (Array.mem_toList_iff.mpr (Array.mem_of_getElem? htoken))).2

/-- **Farther on in the stream is farther on in the text**, or at the same token. -/
theorem siteAt_mono (tokens : state.tokens = scope.source.stream repairs) {position later : Nat}
    (le : position ≤ later) : scope.siteAt state position ≤ scope.siteAt state later := by
  rcases Nat.lt_or_eq_of_le le with hlt | rfl
  · rcases Nat.lt_or_ge later state.tokens.size with hinside | houtside
    · have hsites := (Source.lays_stream_any scope.source repairs).sites
      rw [← tokens, List.pairwise_iff_getElem] at hsites
      have hle := hsites position later (by simpa using Nat.lt_trans hlt hinside)
        (by simpa using hinside) hlt
      simpa [siteAt, hinside, Nat.lt_trans hlt hinside] using hle
    · refine (siteAt_le tokens position).trans (Nat.le_of_eq ?_)
      rw [siteAt, Array.getElem?_eq_none houtside]
      rfl
  · exact Nat.le_refl _

theorem siteAt_eq (state : RecoveryState) (position : Nat) :
    scope.siteAt state position =
      ((state.tokens.toList.map (·.site))[position]?).getD scope.source.size := by
  rw [siteAt, List.getElem?_map, Array.getElem?_toList]

/-- **A token that is put in at the end** moves no position to another site. -/
theorem siteAt_add_end (placed : Repair.Placed scope.source.size repairs) (kind : Kind)
    (before : state.tokens = scope.source.stream repairs)
    (behind : after.tokens =
      scope.source.stream (Repair.add repairs [.insert scope.source.size kind])) (position : Nat) :
    scope.siteAt after position = scope.siteAt state position := by
  rw [siteAt_eq, siteAt_eq, before, behind, placed.add_end,
    Source.sites_stream_append kind placed.within, List.getElem?_append]
  split
  · rfl
  · rename_i houtside
    rw [List.getElem?_eq_none (Nat.not_lt.mp houtside), List.getElem?_singleton]
    split <;> rfl

end RecoveryScope

/-! ### Sites and offsets -/

/-- Tokens that tile a text start one behind the other, inside the text. -/
theorem Tokens.Tiles.starts {offset : Nat} {text : List Char} {tokens : List Token}
    {parts : List (List Char)} (h : Tiles offset text tokens parts)
    (full : ∀ token ∈ tokens, token.range.start < token.range.stop) :
    (tokens.Pairwise fun first second => first.range.start < second.range.start) ∧
      ∀ token ∈ tokens, offset ≤ token.range.start ∧
        token.range.start < offset + Text.byteLength text := by
  induction h with
  | nil => exact ⟨.nil, List.forall_mem_nil _⟩
  | @cons offset token part rest tokens parts range _ ih =>
    obtain ⟨hfirst, hrest⟩ := List.forall_mem_cons.mp full
    obtain ⟨hpairwise, hinside⟩ := ih hrest
    have hpositive : 0 < Text.byteLength part := by
      simp only [range, Text.Range.ofLength] at hfirst
      omega
    have hstart : token.range.start = offset := by rw [range, Text.Range.ofLength]
    rw [Text.byteLength_append]
    refine ⟨List.pairwise_cons.mpr ⟨fun other hother => ?_, hpairwise⟩,
      List.forall_mem_cons.mpr ⟨by omega, fun other hother => ?_⟩⟩
    · have hlow := (hinside other hother).1
      omega
    · obtain ⟨hlow, hhigh⟩ := hinside other hother
      omega

theorem Tokens.length_cut (text : List Char) (tokens : List Token) :
    (cut text tokens).length = tokens.length := by
  induction tokens generalizing text with
  | nil => rfl
  | cons token rest ih =>
    rw [cut]
    split <;> simp only [List.length_cons, ih]

namespace Source

/-- What is read off the significant tokens is read off the tokens that are not trivia. -/
theorem map_collect {α : Type} (read : SourceToken → α) (readToken : Token → α)
    (same : ∀ (token : Token) text trivia,
      read ⟨token.kind, text, token.range, trivia⟩ = readToken token)
    (trivia : List Element) (pieces : List (Token × List Char)) :
    (collect trivia pieces).1.map read =
      ((pieces.map Prod.fst).filter (!·.isExtra)).map readToken := by
  induction pieces generalizing trivia with
  | nil => rfl
  | cons first rest ih =>
    obtain ⟨token, text⟩ := first
    rw [collect, List.map_cons]
    by_cases hextra : token.isExtra
    · rw [if_pos hextra, ih, List.filter_cons_of_neg (by simp [hextra])]
    · rw [if_neg hextra, List.filter_cons_of_pos (by simp [hextra])]
      simp only [List.map_cons, ih, same]

theorem map_ofTokens {α : Type} (read : SourceToken → α) (readToken : Token → α)
    (same : ∀ (token : Token) text trivia,
      read ⟨token.kind, text, token.range, trivia⟩ = readToken token)
    (text : List Char) (tokens : Tokens) :
    (ofTokens text tokens).tokens.toList.map read = tokens.significant.map readToken := by
  have hlength := Nat.le_of_eq (Tokens.length_cut text tokens.list).symm
  rw [ofTokens, map_collect read readToken same, List.map_fst_zip hlength, Tokens.significant]

theorem size_ofTokens (text : List Char) (tokens : Tokens) :
    (ofTokens text tokens).size = tokens.significant.length := by
  have hmap := map_ofTokens (fun _ => ()) (fun _ => ()) (fun _ _ _ => rfl) text tokens
  simpa [size] using congrArg List.length hmap

/-- The significant tokens of a text have the ranges of its tokens that are not trivia. -/
theorem ranges_ofTokens {compiled : CompiledGrammar} (text : List Char) :
    (ofTokens text (compiled.tokenize text)).tokens.toList.map (·.range) =
      ((compiled.tokenize text).list.filter (!·.isExtra)).map (·.range) :=
  map_ofTokens (·.range) (·.range) (fun _ _ _ => rfl) text _

theorem range_size (source : Source) :
    source.range source.size = Text.Range.empty source.length := by
  have hnone : source.tokens[source.size]? = none := Array.getElem?_eq_none (Nat.le_refl _)
  rw [range, hnone]
  rfl

theorem range_of_lt {source : Source} {index : Nat} (lt : index < source.tokens.size) :
    source.range index = source.tokens[index].range := by
  rw [range, Array.getElem?_eq_getElem lt]
  rfl

/-- **Later sites start at later offsets.** -/
theorem start_lt {compiled : CompiledGrammar} (text : List Char) {site later : Nat} :
    let source := ofTokens text (compiled.tokenize text)
    site < later → later ≤ source.size →
      (source.range site).start < (source.range later).start := by
  intro source lt le
  obtain ⟨parts, htiles⟩ := compiled.tiles_tokensFrom 0 .origin text
  obtain ⟨hpairwise, hinside⟩ := htiles.starts (compiled.start_lt_stop 0 .origin text)
  have hranges : source.tokens.toList.map (·.range) =
      ((compiled.tokenize text).list.filter (!·.isExtra)).map (·.range) := ranges_ofTokens text
  have hsite : site < source.tokens.size := Nat.lt_of_lt_of_le lt le
  rw [range_of_lt hsite]
  rcases Nat.lt_or_eq_of_le le with hlater | rfl
  · have hstarts : (source.tokens.toList.map (·.range)).Pairwise
        fun first second => first.start < second.start := by
      rw [hranges, List.pairwise_map]
      exact hpairwise.filter _
    rw [List.pairwise_map, List.pairwise_iff_getElem] at hstarts
    rw [range_of_lt hlater]
    exact hstarts site later hsite hlater lt
  · -- the end of the input is behind every token
    have hmem : source.tokens[site].range ∈ source.tokens.toList.map (·.range) :=
      List.mem_map_of_mem (Array.getElem_mem_toList hsite)
    rw [hranges] at hmem
    obtain ⟨token, htoken, hrange⟩ := List.mem_map.mp hmem
    have hbound := (hinside token (List.mem_of_mem_filter htoken)).2
    rw [Nat.zero_add, hrange] at hbound
    rw [range_size]
    exact hbound

end Source

end Syntagm
