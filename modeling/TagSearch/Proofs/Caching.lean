import TagSearch.Proofs.Casing
import TagSearch.Record.Cache
import TagSearch.Record.Index

/-!
# The cache is not seen

Answers are kept by names in lowercase, whereas the index looks names up trimmed and with `_` for
white space, and reads numbers first. `Index.answer_of_key?` says that the index answers alike
whatever shares a key, so a kept answer is the answer that the index would give anew
(`Cache.IsFaithful`), after any calls.
-/

namespace TagSearch

open Text

/-! ## What shares a key -/

/-- A name is stored by its lowercase. -/
theorem recordName_eq (t : Text) :
    recordName t = t.lowercase.trim.map fun c => if isSpace c then '_' else c := by
  rw [recordName, lowercase_trim]

theorem recordName_of_lowercase {name other : Text} (h : name.lowercase = other.lowercase) :
    recordName name = recordName other := by
  rw [recordName_eq, recordName_eq, h]

/-- Names that differ in case only are the same number, or none. -/
theorem readInt?_of_lowercase {name other : Text} (h : name.lowercase = other.lowercase) :
    Number.readInt? name.trim = Number.readInt? other.trim := by
  rw [← readInt?_lowercase, ← readInt?_lowercase other.trim, lowercase_trim, lowercase_trim, h]

namespace Index

variable (index : Index) {name other : Text}

theorem userId?_of_lowercase (h : name.lowercase = other.lowercase) :
    index.records.userId? name = index.records.userId? other := by
  simp only [records, recordName_of_lowercase h]

theorem poolId?_of_lowercase (h : name.lowercase = other.lowercase) :
    index.records.poolId? name = index.records.poolId? other := by
  simp only [records, recordName_of_lowercase h, readInt?_of_lowercase h]

theorem setId?_of_lowercase (h : name.lowercase = other.lowercase) :
    index.records.setId? name = index.records.setId? other := by
  simp only [records, set?, recordName_of_lowercase h, readInt?_of_lowercase h]

/-- **A request has the answer of its key.** -/
theorem answer_key? {request key : Request} (h : request.key? = some key) :
    index.records.answer key = index.records.answer request := by
  cases request with
  | user name =>
    cases h
    simp only [Records.answer, index.userId?_of_lowercase (lowercase_lowercase name)]
  | pool name =>
    cases h
    simp only [Records.answer, index.poolId?_of_lowercase (lowercase_lowercase name)]
  | set name =>
    cases h
    simp only [Records.answer, index.setId?_of_lowercase (lowercase_lowercase name)]
  | wildcard pattern limit =>
    cases h
    rfl
  | favorites | actor => simp [Request.key?] at h

end Index

/-! ## Calls -/

/-- A call of a cached lookup: a request, or to forget all answers. -/
inductive Call where
  | ask (request : Request)
  | clear
  deriving DecidableEq, Repr

/-- What the records answer to a call. -/
def Records.call (records : Records) : Call → Option Answer
  | .ask request => some (records.answer request)
  | .clear => Option.none

namespace Cache

/-- What a cache answers to a call, and the cache after it. -/
def call (records : Records) (cache : Cache) : Call → Option Answer × Cache
  | .ask request => ((cache.ask records request).1, (cache.ask records request).2)
  | .clear => (none, {})

/-- What a cache answers to calls, one after the other. -/
def answers (records : Records) (cache : Cache) : List Call → List (Option Answer)
  | [] => []
  | call :: rest =>
    (cache.call records call).1 :: answers records (cache.call records call).2 rest

/-- What is kept is what the records answer. -/
def IsFaithful (records : Records) (cache : Cache) : Prop :=
  ∀ entry ∈ cache.entries, entry.2 = records.answer entry.1

theorem isFaithful_empty (records : Records) : IsFaithful records {} := by
  simp [IsFaithful]

variable {index : Index} {cache : Cache}

theorem IsFaithful.hit? (h : cache.IsFaithful index.records) {request : Request} {answer : Answer}
    (hhit : cache.hit? request = some answer) : answer = index.records.answer request := by
  obtain ⟨key, hkey, hget⟩ := Option.bind_eq_some_iff.mp hhit
  obtain ⟨entry, hfind, rfl⟩ := Option.map_eq_some_iff.mp hget
  have hentry : entry.1 = key := by simpa using List.find?_some hfind
  rw [h entry (List.mem_of_find?_eq_some hfind), hentry, index.answer_key? hkey]

theorem IsFaithful.keep (h : cache.IsFaithful index.records) (request : Request) :
    (cache.keep request (index.records.answer request)).IsFaithful index.records := by
  unfold Cache.keep
  split
  · next key hkey => exact List.forall_mem_cons.mpr ⟨(index.answer_key? hkey).symm, h⟩
  · exact h

/-- **One call is answered as by the index, and keeps nothing else.** -/
theorem IsFaithful.call (h : cache.IsFaithful index.records) (call : Call) :
    (cache.call index.records call).1 = index.records.call call
      ∧ (cache.call index.records call).2.IsFaithful index.records := by
  cases call with
  | ask request =>
    simp only [Cache.call, Cache.ask, Records.call]
    split
    · next answer hhit => exact ⟨congrArg some (h.hit? hhit), h⟩
    · exact ⟨rfl, h.keep request⟩
  | clear => exact ⟨rfl, isFaithful_empty _⟩

theorem IsFaithful.answers (h : cache.IsFaithful index.records) (calls : List Call) :
    cache.answers index.records calls = calls.map index.records.call := by
  induction calls generalizing cache with
  | nil => rfl
  | cons call rest ih =>
    obtain ⟨hanswer, hnext⟩ := h.call call
    rw [Cache.answers, hanswer, ih hnext, List.map_cons]

end Cache

/-- **The cache is not seen.** Whatever is asked of it and whenever it is cleared, a cache in front of
an index answers every call as the index does; and names with the same lowercase, which share an
answer there, are the same user, pool and set to the index. -/
theorem cache_transparent (index : Index) :
    (∀ calls : List Call,
        Cache.answers index.records {} calls = calls.map index.records.call)
      ∧ ∀ name other : Text, name.lowercase = other.lowercase →
          index.records.userId? name = index.records.userId? other
            ∧ index.records.poolId? name = index.records.poolId? other
            ∧ index.records.setId? name = index.records.setId? other :=
  ⟨(Cache.isFaithful_empty index.records).answers, fun _ _ h =>
    ⟨index.userId?_of_lowercase h, index.poolId?_of_lowercase h, index.setId?_of_lowercase h⟩⟩

/-- A user, a pool and a set, by names as they are stored. -/
def seaIndex : Index where
  actor := { id := some 7 }
  users := ⟨[("οδυσσεύς_ὁ_βασιλεύς".toList, { id := 3 })]⟩
  pools := ⟨[("i\u0307_100%".toList, 8)]⟩
  sets := ⟨[("mine".toList, { id := 5, owner := some 7, isPublic := false })]⟩

/-- The name of the user in capitals, with sigmas at the ends of its words and white space around. -/
def kingInCapitals : Text := "\u2003ΟΔΥΣΣΕΎΣ ὁ ΒΑΣΙΛΕΎΣ ".toList

/-- The same name in small letters but one. -/
def kingInSmall : Text := "\u2003οδυσσεύς Ὁ βασιλεύς ".toList

/-- The second name of the user finds what was kept for the first; the pool has a capital that
lowercases to two characters. -/
theorem cache_transparent_sea :
    kingInCapitals.lowercase = kingInSmall.lowercase
      ∧ seaIndex.records.userId? kingInCapitals = seaIndex.records.userId? kingInSmall
      ∧ Cache.answers seaIndex.records {}
          [.ask (.user kingInCapitals), .ask (.user kingInSmall), .ask (.pool "İ 100%".toList),
            .clear, .ask (.pool " +42".toList), .ask (.set "MINE".toList), .ask .actor]
        = [some (.id (some 3)), some (.id (some 3)), some (.id (some 8)), none,
            some (.id (some 42)), some (.set (some (5, true))), some (.actor { id := some 7 })] := by
  obtain ⟨hanswers, hshared⟩ := cache_transparent seaIndex
  have hkey : kingInCapitals.lowercase = kingInSmall.lowercase := by decide +kernel
  refine ⟨hkey, (hshared _ _ hkey).1, ?_⟩
  rw [hanswers]
  decide +kernel

end TagSearch
