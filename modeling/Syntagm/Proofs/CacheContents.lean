import Mathlib.Data.Finset.Card
import Mathlib.Data.List.Nodup
import Syntagm.Compiled.Cache
import Syntagm.Proofs.Lexicon

/-!
# What a cache holds

A cache files its entries in buckets, by fingerprint.  What it means is a set of entries for
different grammars: a grammar is looked up by going through one bucket, but what is found there is
the entry for this grammar among all (`GrammarCache.WellFormed.lookup?_eq_some_iff`).  That rests
on how buckets are kept (`GrammarCache.WellFormed`): one for each fingerprint, none of them empty,
and in each one entries for different grammars with that fingerprint.

All operations change one bucket (`GrammarCache.setBucket`), so it is enough to see what a new
bucket does to the entries.  Then adding and invalidating are what they are for a map with grammars
as keys, whatever the fingerprints are.
-/

namespace Syntagm

/-- A compiled grammar knows the grammar it was compiled from. -/
theorem Grammar.grammar_compile {grammar : Grammar} {compiled : CompiledGrammar}
    (done : grammar.compile = .ok compiled) : compiled.grammar = grammar := by
  unfold compile at done
  obtain ⟨_, _, done⟩ := bind_eq_ok.mp done
  obtain ⟨_, _, done⟩ := bind_eq_ok.mp done
  obtain ⟨⟨_, _⟩, _, done⟩ := bind_eq_ok.mp done
  obtain ⟨_, _, done⟩ := bind_eq_ok.mp done
  obtain ⟨_, _, done⟩ := bind_eq_ok.mp done
  split at done
  · obtain ⟨_, _, done⟩ := bind_eq_ok.mp done
    rw [← pure_eq_ok.mp done]
  · exact absurd done throw_ne_ok

namespace GrammarCache

/-- All entries of a cache. -/
def entries (cache : GrammarCache) : List CacheEntry := cache.buckets.flatMap (·.2)

variable (fingerprint : Grammar → UInt64)

/-- **How a cache keeps its entries.** -/
structure WellFormed (cache : GrammarCache) : Prop where
  /-- There is one bucket for a fingerprint. -/
  unique : (cache.buckets.map (·.1)).Nodup
  /-- Entries are filed under the fingerprints of their grammars. -/
  filed : ∀ bucket ∈ cache.buckets, ∀ entry ∈ bucket.2,
    fingerprint entry.compiled.grammar = bucket.1
  nonempty : ∀ bucket ∈ cache.buckets, bucket.2 ≠ []
  /-- No bucket has two entries for a grammar. -/
  distinct : ∀ bucket ∈ cache.buckets, (bucket.2.map (·.compiled.grammar)).Nodup
  /-- The number of the next entry is free. -/
  numbered : ∀ entry ∈ cache.entries, entry.number < cache.next
  compiled : ∀ entry ∈ cache.entries,
    entry.compiled.grammar.compile = .ok entry.compiled

variable {fingerprint} {cache : GrammarCache} {grammar : Grammar} {entry : CacheEntry}

theorem add_of_found {compiled : CompiledGrammar}
    (found : cache.lookup? fingerprint compiled.grammar = some entry) :
    cache.add fingerprint compiled = (entry, cache) := by
  unfold add
  rw [found]

/-- A new entry takes the next number. -/
theorem add_of_absent {compiled : CompiledGrammar}
    (absent : cache.lookup? fingerprint compiled.grammar = none) :
    (cache.add fingerprint compiled).1 = ⟨cache.next, compiled⟩ ∧
      (cache.add fingerprint compiled).2.next = cache.next + 1 := by
  unfold add
  rw [absent]
  exact ⟨rfl, rfl⟩

/-- Whether something was removed is whether something was there. -/
theorem invalidate_eq_true_iff :
    (cache.invalidate fingerprint grammar).1 = true ↔
      (cache.lookup? fingerprint grammar).isSome = true := by
  unfold invalidate lookup?
  rw [decide_eq_true_iff, List.length_filter_lt_length_iff_exists, List.find?_isSome]
  simp

theorem mem_entries : entry ∈ cache.entries ↔ ∃ bucket ∈ cache.buckets, entry ∈ bucket.2 :=
  List.mem_flatMap

theorem mem_buckets_of_mem_bucket {key : UInt64} (h : entry ∈ cache.bucket key) :
    (key, cache.bucket key) ∈ cache.buckets := by
  unfold bucket at h ⊢
  cases hfound : cache.buckets.lookup key with
  | none => simp [hfound] at h
  | some found =>
    obtain ⟨before, after, heq, -⟩ := List.lookup_eq_some_iff.mp hfound
    simp [heq]

/-- A cache without buckets is well formed. -/
theorem wellFormed_of_nil {next : Nat} : WellFormed fingerprint ⟨[], next⟩ where
  unique := List.nodup_nil
  filed _ h := nomatch h
  nonempty _ h := nomatch h
  distinct _ h := nomatch h
  numbered _ h := nomatch h
  compiled _ h := nomatch h

namespace WellFormed

variable (h : cache.WellFormed fingerprint)
include h

/-! ### Looking up -/

theorem bucket_eq {found : UInt64 × List CacheEntry} (mem : found ∈ cache.buckets) :
    cache.bucket found.1 = found.2 := by
  unfold bucket
  rw [List.lookup_eq_some_iff.mpr, Option.getD_some]
  obtain ⟨before, after, heq⟩ := List.append_of_mem mem
  refine ⟨before, after, heq, fun other hother => ?_⟩
  have hunique := h.unique
  rw [heq, List.map_append, List.map_cons] at hunique
  have hne := (List.nodup_middle.mp hunique)
  rw [List.nodup_cons] at hne
  refine bne_iff_ne.mpr fun hsame => hne.1 ?_
  rw [hsame]
  exact List.mem_append_left _ (List.mem_map_of_mem hother)

/-- The entries with a fingerprint are those of its bucket. -/
theorem mem_bucket_iff {key : UInt64} :
    entry ∈ cache.bucket key ↔
      entry ∈ cache.entries ∧ fingerprint entry.compiled.grammar = key := by
  constructor
  · intro hmem
    have hbucket := mem_buckets_of_mem_bucket hmem
    exact ⟨mem_entries.mpr ⟨_, hbucket, hmem⟩, h.filed _ hbucket entry hmem⟩
  · rintro ⟨hmem, rfl⟩
    obtain ⟨bucket, hbucket, hentry⟩ := mem_entries.mp hmem
    rw [h.filed bucket hbucket entry hentry, h.bucket_eq hbucket]
    exact hentry

theorem nodup_bucket (key : UInt64) :
    ((cache.bucket key).map (·.compiled.grammar)).Nodup := by
  cases hbucket : cache.bucket key with
  | nil => exact List.nodup_nil
  | cons first rest =>
    have hmem := mem_buckets_of_mem_bucket (hbucket ▸ List.mem_cons_self)
    rw [← hbucket]
    exact h.distinct _ hmem

/-- Entries for the same grammar are the same. -/
theorem eq_of_grammar_eq {other : CacheEntry} (mem : entry ∈ cache.entries)
    (mem' : other ∈ cache.entries) (same : entry.compiled.grammar = other.compiled.grammar) :
    entry = other :=
  List.inj_on_of_nodup_map (h.nodup_bucket (fingerprint other.compiled.grammar))
    (h.mem_bucket_iff.mpr ⟨mem, congrArg fingerprint same⟩) (h.mem_bucket_iff.mpr ⟨mem', rfl⟩) same

/-- **What is found is the entry for the grammar among all.** -/
theorem lookup?_eq_some_iff :
    cache.lookup? fingerprint grammar = some entry ↔
      entry ∈ cache.entries ∧ entry.compiled.grammar = grammar := by
  constructor
  · intro hfound
    have hmem := (h.mem_bucket_iff.mp (List.mem_of_find?_eq_some hfound)).1
    exact ⟨hmem, by simpa using List.find?_some hfound⟩
  · rintro ⟨hmem, rfl⟩
    cases hfound : cache.lookup? fingerprint entry.compiled.grammar with
    | none =>
      have hnone := List.find?_eq_none.mp hfound entry (h.mem_bucket_iff.mpr ⟨hmem, rfl⟩)
      simp at hnone
    | some found =>
      have hother := (h.mem_bucket_iff.mp (List.mem_of_find?_eq_some hfound)).1
      exact congrArg some (h.eq_of_grammar_eq hother hmem (by simpa using List.find?_some hfound))

theorem lookup?_eq_none_iff :
    cache.lookup? fingerprint grammar = none ↔
      ∀ entry ∈ cache.entries, entry.compiled.grammar ≠ grammar := by
  constructor
  · intro hnone entry hmem hsame
    rw [h.lookup?_eq_some_iff.mpr ⟨hmem, hsame⟩] at hnone
    cases hnone
  · intro hall
    refine Option.eq_none_iff_forall_ne_some.mpr fun entry hfound => ?_
    obtain ⟨hmem, hsame⟩ := h.lookup?_eq_some_iff.mp hfound
    exact hall entry hmem hsame

/-! ### Another bucket -/

/-- What a cache holds with another bucket: its entries, and of the old ones those with other
fingerprints. -/
theorem mem_entries_setBucket {key : UInt64} {bucket : List CacheEntry} :
    entry ∈ (cache.setBucket key bucket).entries ↔
      entry ∈ bucket ∨ entry ∈ cache.entries ∧ fingerprint entry.compiled.grammar ≠ key := by
  have hothers : (∃ old ∈ cache.buckets.filter (·.1 != key), entry ∈ old.2) ↔
      entry ∈ cache.entries ∧ fingerprint entry.compiled.grammar ≠ key := by
    simp only [List.mem_filter, mem_entries, bne_iff_ne]
    constructor
    · rintro ⟨old, ⟨hold, hne⟩, hentry⟩
      exact ⟨⟨old, hold, hentry⟩, h.filed old hold entry hentry ▸ hne⟩
    · rintro ⟨⟨old, hold, hentry⟩, hne⟩
      exact ⟨old, ⟨hold, h.filed old hold entry hentry ▸ hne⟩, hentry⟩
  rw [← hothers, mem_entries, setBucket]
  cases bucket with
  | nil => simp
  | cons first rest => simp

/-- **A cache stays well formed** if the new bucket is. -/
theorem setBucket {key : UInt64} {bucket : List CacheEntry}
    (filed : ∀ entry ∈ bucket, fingerprint entry.compiled.grammar = key)
    (distinct : (bucket.map (·.compiled.grammar)).Nodup) {next : Nat} (le : cache.next ≤ next)
    (numbered : ∀ entry ∈ bucket, entry.number < next)
    (compiled : ∀ entry ∈ bucket, entry.compiled.grammar.compile = .ok entry.compiled) :
    WellFormed fingerprint { cache.setBucket key bucket with next } := by
  have hentry {entry : CacheEntry} (hmem : entry ∈ (cache.setBucket key bucket).entries) :
      entry ∈ bucket ∨ entry ∈ cache.entries :=
    (h.mem_entries_setBucket.mp hmem).imp_right And.left
  -- a bucket is the new one, which is not empty then, or one with another fingerprint
  have hbucket {old : UInt64 × List CacheEntry}
      (hmem : old ∈ (cache.setBucket key bucket).buckets) :
      old = (key, bucket) ∧ bucket ≠ [] ∨ old ∈ cache.buckets := by
    unfold GrammarCache.setBucket at hmem
    cases bucket with
    | nil => exact .inr (List.mem_of_mem_filter hmem)
    | cons first rest =>
      exact (List.mem_cons.mp hmem).imp (⟨·, List.cons_ne_nil _ _⟩) List.mem_of_mem_filter
  refine ⟨?_, fun old hold => ?_, fun old hold => ?_, fun old hold => ?_, fun entry hmem => ?_,
    fun entry hmem => ?_⟩
  · have hothers : ((cache.buckets.filter (·.1 != key)).map (·.1)).Nodup :=
      h.unique.sublist (List.filter_sublist.map _)
    unfold GrammarCache.setBucket
    cases bucket with
    | nil => exact hothers
    | cons first rest =>
      refine List.nodup_cons.mpr ⟨fun hmem => ?_, hothers⟩
      obtain ⟨old, hold, heq⟩ := List.mem_map.mp hmem
      exact bne_iff_ne.mp (List.mem_filter.mp hold).2 heq
  · rcases hbucket hold with ⟨rfl, -⟩ | hold
    · exact filed
    · exact h.filed old hold
  · rcases hbucket hold with ⟨rfl, hne⟩ | hold
    · exact hne
    · exact h.nonempty old hold
  · rcases hbucket hold with ⟨rfl, -⟩ | hold
    · exact distinct
    · exact h.distinct old hold
  · rcases hentry hmem with hmem | hmem
    · exact numbered entry hmem
    · exact Nat.lt_of_lt_of_le (h.numbered entry hmem) le
  · rcases hentry hmem with hmem | hmem
    · exact compiled entry hmem
    · exact h.compiled entry hmem

/-! ### Adding and invalidating -/

section Adding
variable {compiled : CompiledGrammar}

/-- What a cache holds after a grammar that it lacked has been added. -/
theorem mem_entries_add (absent : cache.lookup? fingerprint compiled.grammar = none) :
    entry ∈ (cache.add fingerprint compiled).2.entries ↔
      entry ∈ cache.entries ∨ entry = ⟨cache.next, compiled⟩ := by
  unfold add
  rw [absent]
  refine h.mem_entries_setBucket.trans ?_
  rw [List.mem_append, List.mem_singleton, h.mem_bucket_iff]
  tauto

theorem wellFormed_add (done : grammar.compile = .ok compiled) :
    WellFormed fingerprint (cache.add fingerprint compiled).2 := by
  unfold add
  cases absent : cache.lookup? fingerprint compiled.grammar with
  | some entry => exact h
  | none =>
    have hentry {entry : CacheEntry}
        (hmem : entry ∈ cache.bucket (fingerprint compiled.grammar) ++ [⟨cache.next, compiled⟩]) :
        entry ∈ cache.entries ∧ fingerprint entry.compiled.grammar = fingerprint compiled.grammar ∨
          entry = ⟨cache.next, compiled⟩ :=
      (List.mem_append.mp hmem).imp h.mem_bucket_iff.mp List.mem_singleton.mp
    refine h.setBucket (fun entry hmem => ?_) ?_ (Nat.le_succ _) (fun entry hmem => ?_)
      fun entry hmem => ?_
    · rcases hentry hmem with ⟨-, hkey⟩ | rfl
      · exact hkey
      · rfl
    · rw [List.map_append]
      refine List.Nodup.append (h.nodup_bucket _) (List.nodup_singleton _) fun other hmem heq => ?_
      obtain ⟨entry, hentry, rfl⟩ := List.mem_map.mp hmem
      exact h.lookup?_eq_none_iff.mp absent entry (h.mem_bucket_iff.mp hentry).1
        (List.mem_singleton.mp heq)
    · rcases hentry hmem with ⟨hold, -⟩ | rfl
      · exact Nat.lt_succ_of_lt (h.numbered entry hold)
      · exact Nat.lt_succ_self _
    · rcases hentry hmem with ⟨hold, -⟩ | rfl
      · exact h.compiled entry hold
      · exact Grammar.grammar_compile done ▸ done

/-- **To add is to insert into a map**, unless something is there. -/
theorem lookup?_add (done : grammar.compile = .ok compiled) (other : Grammar) :
    (cache.add fingerprint compiled).2.lookup? fingerprint other =
      if grammar = other then some (cache.add fingerprint compiled).1
      else cache.lookup? fingerprint other := by
  obtain rfl := Grammar.grammar_compile done
  cases hfound : cache.lookup? fingerprint compiled.grammar with
  | some entry =>
    rw [add_of_found hfound]
    split
    · rename_i heq
      rw [← heq, hfound]
    · rfl
  | none =>
    ext entry
    rw [(add_of_absent hfound).1, (h.wellFormed_add done).lookup?_eq_some_iff,
      h.mem_entries_add hfound]
    split
    · rename_i heq
      subst heq
      constructor
      · rintro ⟨hold | rfl, hgrammar⟩
        · exact absurd hgrammar (h.lookup?_eq_none_iff.mp hfound entry hold)
        · rfl
      · rintro ⟨⟩
        exact ⟨.inr rfl, rfl⟩
    · rename_i hne
      rw [h.lookup?_eq_some_iff]
      constructor
      · rintro ⟨hold | rfl, hgrammar⟩
        · exact ⟨hold, hgrammar⟩
        · exact absurd hgrammar hne
      · exact fun hold => ⟨.inl hold.1, hold.2⟩

end Adding

/-- What is left is what is not for the grammar. -/
theorem mem_entries_invalidate :
    entry ∈ (cache.invalidate fingerprint grammar).2.entries ↔
      entry ∈ cache.entries ∧ entry.compiled.grammar ≠ grammar := by
  refine h.mem_entries_setBucket.trans ?_
  rw [List.mem_filter, h.mem_bucket_iff, bne_iff_ne]
  constructor
  · rintro (⟨⟨hmem, -⟩, hne⟩ | ⟨hmem, hne⟩)
    · exact ⟨hmem, hne⟩
    · exact ⟨hmem, fun heq => hne (congrArg fingerprint heq)⟩
  · rintro ⟨hmem, hne⟩
    exact (Classical.em (fingerprint entry.compiled.grammar = fingerprint grammar)).imp
      (⟨⟨hmem, ·⟩, hne⟩) (⟨hmem, ·⟩)

theorem wellFormed_invalidate :
    WellFormed fingerprint (cache.invalidate fingerprint grammar).2 := by
  have hkept {entry : CacheEntry} (hmem : entry ∈ (cache.bucket (fingerprint grammar)).filter
      (·.compiled.grammar != grammar)) := h.mem_bucket_iff.mp (List.mem_of_mem_filter hmem)
  exact h.setBucket (fun entry hmem => (hkept hmem).2)
    ((h.nodup_bucket _).sublist (List.filter_sublist.map _)) (Nat.le_refl _)
    (fun entry hmem => h.numbered entry (hkept hmem).1)
    fun entry hmem => h.compiled entry (hkept hmem).1

/-- **To invalidate is to erase from a map.** -/
theorem lookup?_invalidate (other : Grammar) :
    (cache.invalidate fingerprint grammar).2.lookup? fingerprint other =
      if grammar = other then none else cache.lookup? fingerprint other := by
  ext entry
  rw [h.wellFormed_invalidate.lookup?_eq_some_iff, h.mem_entries_invalidate]
  split
  · rename_i heq
    subst heq
    simp
  · rename_i hne
    rw [h.lookup?_eq_some_iff]
    constructor
    · rintro ⟨⟨hold, -⟩, hgrammar⟩
      exact ⟨hold, hgrammar⟩
    · rintro ⟨hold, rfl⟩
      exact ⟨⟨hold, fun heq => hne heq.symm⟩, rfl⟩

/-! ### Size -/

/-- **No two entries are for the same grammar**, in one bucket or in two. -/
theorem nodup_entries : (cache.entries.map (·.compiled.grammar)).Nodup := by
  rw [entries, List.map_flatMap, List.nodup_flatMap]
  refine ⟨h.distinct, (List.pairwise_map.mp h.unique).imp_of_mem ?_⟩
  intro first second hfirst hsecond hne grammar hmem hmem'
  obtain ⟨entry, hentry, rfl⟩ := List.mem_map.mp hmem
  obtain ⟨other, hother, heq⟩ := List.mem_map.mp hmem'
  exact hne ((h.filed first hfirst entry hentry).symm.trans
    ((congrArg fingerprint heq).symm.trans (h.filed second hsecond other hother)))

/-- **The size is the number of grammars that are found.** -/
theorem size_eq_card :
    ∃ grammars : Finset Grammar,
      (∀ grammar, grammar ∈ grammars ↔ (cache.lookup? fingerprint grammar).isSome = true) ∧
        cache.size = grammars.card := by
  refine ⟨(cache.entries.map (·.compiled.grammar)).toFinset, fun grammar => ?_, ?_⟩
  · rw [List.mem_toFinset, List.mem_map, Option.isSome_iff_exists]
    exact exists_congr fun entry => h.lookup?_eq_some_iff.symm
  · rw [List.toFinset_card_of_nodup h.nodup_entries, List.length_map]
    rfl

theorem isEmpty_iff : cache.isEmpty = true ↔ cache.size = 0 := by
  rw [isEmpty, size, List.isEmpty_iff, List.length_eq_zero_iff, List.flatMap_eq_nil_iff]
  constructor
  · intro hnone
    simp [hnone]
  · intro hall
    exact List.eq_nil_iff_forall_not_mem.mpr fun bucket hmem =>
      h.nonempty bucket hmem (hall bucket hmem)

end WellFormed

end GrammarCache

end Syntagm
