import Bytewise.Proofs.FileTree.Names
import Bytewise.Proofs.Stream
import Bytewise.WordCount
import Mathlib

/-!
# Counts do not depend on chunks

A word is a run of visible bytes that can be made longer on neither side (`IsWord`), and `wordSpans`
are all words of some data. The counter does not look for words: it counts one whenever a visible
byte comes after one that is not, so what it counts are the places where words start. Each word has
one start and each start one word (`card_wordSpans`).

A chunk adds its own words to the count, except that its first word is not a new one if it goes on
with the word in which the chunks before it ended (`WordCounter.feed_eq_extend`). So the counts of
chunks, of a stream and of a file are those of the whole data, as long as the sizes of reads are
ones that the system can take.
-/

namespace Bytewise

/-! ## Words -/

/-- There is a byte at this place, and it is not blank. -/
def visibleAt (data : Bytes) (i : Nat) : Bool := data[i]?.any (!isBlankByte ·)

/-- The bytes from `start` up to `stop` are a word. -/
structure IsWord (data : Bytes) (start stop : Nat) : Prop where
  nonempty : start < stop
  visible : ∀ i < stop, start ≤ i → visibleAt data i = true
  left_end : start = 0 ∨ visibleAt data (start - 1) = false
  right_end : visibleAt data stop = false

instance (data : Bytes) (start stop : Nat) : Decidable (IsWord data start stop) :=
  decidable_of_iff (start < stop ∧ (∀ i < stop, start ≤ i → visibleAt data i = true) ∧
      (start = 0 ∨ visibleAt data (start - 1) = false) ∧ visibleAt data stop = false)
    ⟨fun ⟨nonempty, visible, left, right⟩ => ⟨nonempty, visible, left, right⟩,
      fun word => ⟨word.nonempty, word.visible, word.left_end, word.right_end⟩⟩

/-- The words of some data, each by its first place and the one after its last. -/
def wordSpans (data : Bytes) : Finset (Nat × Nat) :=
  (Finset.range (data.length + 1) ×ˢ Finset.range (data.length + 1)).filter fun w =>
    IsWord data w.1 w.2

variable {data : Bytes} {start stop i : Nat}

theorem lt_length_of_visibleAt (visible : visibleAt data i = true) : i < data.length := by
  by_contra outside
  simp [visibleAt, List.getElem?_eq_none (Nat.not_lt.mp outside)] at visible

theorem IsWord.stop_le (word : IsWord data start stop) : stop ≤ data.length := by
  have last := word.visible (stop - 1) (Nat.sub_one_lt_of_lt word.nonempty)
    (Nat.le_sub_one_of_lt word.nonempty)
  have := lt_length_of_visibleAt last
  omega

theorem mem_wordSpans {w : Nat × Nat} : w ∈ wordSpans data ↔ IsWord data w.1 w.2 := by
  simp only [wordSpans, Finset.mem_filter, Finset.mem_product, Finset.mem_range,
    and_iff_right_iff_imp]
  intro word
  have := word.stop_le
  have := word.nonempty
  omega

def startsAt (data : Bytes) (i : Nat) : Bool :=
  visibleAt data i && (i == 0 || !visibleAt data (i - 1))

theorem startsAt_of_isWord (word : IsWord data start stop) : startsAt data start = true := by
  have first := word.visible start word.nonempty (Nat.le_refl start)
  obtain zero | blank := word.left_end
  · subst zero
    simp [startsAt, first]
  · simp [startsAt, first, blank]

/-- Two words that start at the same place end at the same place: the end of one is not visible, so
it does not lie inside the other. -/
theorem IsWord.stop_unique {stop' : Nat} (word : IsWord data start stop)
    (word' : IsWord data start stop') : stop = stop' := by
  obtain less | same | greater := Nat.lt_trichotomy stop stop'
  · have inside := word'.visible stop less (Nat.le_of_lt word.nonempty)
    simp [word.right_end] at inside
  · exact same
  · have inside := word.visible stop' greater (Nat.le_of_lt word'.nonempty)
    simp [word'.right_end] at inside

/-- The first place from `start` on that is not visible ends the word that starts there. -/
theorem exists_isWord (starts : startsAt data start = true) : ∃ stop, IsWord data start stop := by
  simp only [startsAt, Bool.and_eq_true, Bool.or_eq_true, beq_iff_eq, Bool.not_eq_true'] at starts
  obtain ⟨visible, left⟩ := starts
  have ends : ∃ stop, start ≤ stop ∧ visibleAt data stop = false :=
    ⟨data.length, Nat.le_of_lt (lt_length_of_visibleAt visible), by simp [visibleAt]⟩
  obtain ⟨after, right⟩ := Nat.find_spec ends
  refine ⟨Nat.find ends, Nat.lt_of_le_of_ne after ?_, ?_, left, right⟩
  · intro same
    rw [← same, visible] at right
    cases right
  · intro i before inside
    by_contra hidden
    exact Nat.find_min ends before ⟨inside, by simpa using hidden⟩

/-- There are as many words as places where words start. -/
theorem card_wordSpans (data : Bytes) :
    (wordSpans data).card = ((Finset.range data.length).filter (startsAt data ·)).card := by
  apply Finset.card_bij fun w _ => w.1
  · intro w word
    have starts := startsAt_of_isWord (mem_wordSpans.mp word)
    have inside := lt_length_of_visibleAt (Bool.and_eq_true _ _ ▸ starts).1
    simpa using ⟨inside, starts⟩
  · rintro ⟨start, stop⟩ word ⟨start', stop'⟩ word' (rfl : start = start')
    exact Prod.ext rfl ((mem_wordSpans.mp word).stop_unique (mem_wordSpans.mp word'))
  · intro i starts
    obtain ⟨stop, word⟩ := exists_isWord (Finset.mem_filter.mp starts).2
    exact ⟨(i, stop), mem_wordSpans.mpr word, rfl⟩

@[simp] theorem wordSpans_nil : wordSpans [] = ∅ := by
  rw [← Finset.card_eq_zero, card_wordSpans]
  rfl

/-! ## One more byte -/

theorem visibleAt_append_of_lt (inside : i < data.length) (more : Bytes) :
    visibleAt (data ++ more) i = visibleAt data i := by
  rw [visibleAt, visibleAt, List.getElem?_append_left inside]

theorem visibleAt_concat_length (data : Bytes) (b : UInt8) :
    visibleAt (data ++ [b]) data.length = !isBlankByte b := by
  simp [visibleAt]

/-- Is the last byte part of a word? -/
def endsInWord (data : Bytes) : Bool := visibleAt data (data.length - 1)

theorem endsInWord_concat (data : Bytes) (b : UInt8) :
    endsInWord (data ++ [b]) = !isBlankByte b := by
  simpa [endsInWord] using visibleAt_concat_length data b

/-- A byte behind the data starts a word if it is visible and the data does not end in a word. -/
theorem startsAt_concat_length (data : Bytes) (b : UInt8) :
    startsAt (data ++ [b]) data.length = (!isBlankByte b && !endsInWord data) := by
  rw [startsAt, visibleAt_concat_length]
  cases data with
  | nil => simp [endsInWord, visibleAt]
  | cons first rest =>
      have inside : (first :: rest).length - 1 < (first :: rest).length := by simp
      rw [visibleAt_append_of_lt inside]
      simp [endsInWord]

theorem startsAt_append_of_lt (inside : i < data.length) (more : Bytes) :
    startsAt (data ++ more) i = startsAt data i := by
  rw [startsAt, startsAt, visibleAt_append_of_lt inside, visibleAt_append_of_lt (by omega)]

theorem card_wordSpans_concat (data : Bytes) (b : UInt8) :
    (wordSpans (data ++ [b])).card =
      (wordSpans data).card + if !isBlankByte b && !endsInWord data then 1 else 0 := by
  have before : (Finset.range data.length).filter (startsAt (data ++ [b]) ·) =
      (Finset.range data.length).filter (startsAt data ·) := by
    apply Finset.filter_congr
    intro i inside
    rw [startsAt_append_of_lt (Finset.mem_range.mp inside)]
  rw [card_wordSpans, card_wordSpans, List.length_append, List.length_singleton,
    Finset.range_add_one, Finset.filter_insert, before, startsAt_concat_length]
  split
  · rw [Finset.card_insert_of_notMem (by simp)]
  · rfl

/-! ## Chunks -/

namespace WordCounter

/-- What a chunk adds to the counts, taken as a whole: its first word is not a new one if it goes on
with the word that was not over before the chunk. -/
def extend (c : WordCounter) (chunk : Bytes) : WordCounter :=
  if chunk.isEmpty then c
  else
    { lines := c.lines + chunk.count newline
      words := c.words + ((wordSpans chunk).card -
        if c.inWord && visibleAt chunk 0 then 1 else 0)
      bytes := c.bytes + chunk.length
      inWord := endsInWord chunk }

theorem feed_concat (c : WordCounter) (chunk : Bytes) (b : UInt8) :
    c.feed (chunk ++ [b]) = (c.feed chunk).step b := by
  simp [feed]

theorem extend_singleton (c : WordCounter) (b : UInt8) : c.extend [b] = c.step b := by
  have count : (wordSpans [b]).card = if !isBlankByte b then 1 else 0 := by
    simpa [wordSpans_nil, endsInWord, visibleAt] using card_wordSpans_concat [] b
  have first : visibleAt [b] 0 = !isBlankByte b := rfl
  have last : endsInWord [b] = !isBlankByte b := rfl
  simp only [extend, step, count, first, last, List.isEmpty_cons, List.count_singleton,
    List.length_singleton]
  by_cases feed : b = newline <;> cases isBlankByte b <;> cases c.inWord <;> simp [feed]

/-- One more byte at the end of a chunk is one more step. -/
theorem extend_concat {chunk : Bytes} (inhabited : chunk ≠ []) (c : WordCounter) (b : UInt8) :
    c.extend (chunk ++ [b]) = (c.extend chunk).step b := by
  have first : visibleAt (chunk ++ [b]) 0 = visibleAt chunk 0 :=
    visibleAt_append_of_lt (List.length_pos_iff.mpr inhabited) [b]
  -- A word that the chunk begins with is one of its words, so none is subtracted in vain.
  have enough : visibleAt chunk 0 = true → 0 < (wordSpans chunk).card := by
    intro visible
    have starts : startsAt chunk 0 = true := by simp [startsAt, visible]
    obtain ⟨stop, word⟩ := exists_isWord starts
    exact Finset.card_pos.mpr ⟨(0, stop), mem_wordSpans.mpr word⟩
  have empty : chunk.isEmpty = false := by simpa using inhabited
  have more : (chunk ++ [b]).isEmpty = false := by simp
  simp only [extend, step, empty, more, first, card_wordSpans_concat, endsInWord_concat,
    List.count_append, List.count_singleton, List.length_append, List.length_singleton,
    Bool.false_eq_true, ↓reduceIte, mk.injEq, and_true]
  refine ⟨?_, ?_, by omega⟩
  · by_cases feed : b = newline <;> simp [feed, Nat.add_assoc]
  · by_cases continues : (c.inWord && visibleAt chunk 0) = true
    · have := enough (Bool.and_eq_true _ _ ▸ continues).2
      simp only [continues, ↓reduceIte]
      split <;> omega
    · simp only [continues, Bool.false_eq_true, ↓reduceIte]
      split <;> omega

/-- Byte by byte, a chunk adds what it adds as a whole. -/
theorem feed_eq_extend (c : WordCounter) (chunk : Bytes) : c.feed chunk = c.extend chunk := by
  induction chunk using List.reverseRecOn with
  | nil => rfl
  | append_singleton chunk b ih =>
      rw [feed_concat, ih]
      by_cases empty : chunk = []
      · subst empty
        exact (c.extend_singleton b).symm
      · exact (extend_concat empty c b).symm

theorem foldl_feed (c : WordCounter) (chunks : List Bytes) :
    chunks.foldl feed c = c.feed chunks.flatten := by
  induction chunks generalizing c with
  | nil => rfl
  | cons chunk chunks ih =>
      rw [List.foldl_cons, ih, List.flatten_cons]
      exact List.foldl_append.symm

end WordCounter

namespace Tally

def prescribed (data : Bytes) : Tally :=
  ⟨data.count newline, (wordSpans data).card, data.length, data.length⟩

theorem tally_feed (data : Bytes) : (({} : WordCounter).feed data).tally = prescribed data := by
  rw [WordCounter.feed_eq_extend, WordCounter.extend]
  split
  next empty =>
    rw [List.isEmpty_iff.mp empty]
    simp [WordCounter.tally, prescribed]
  next => simp [WordCounter.tally, prescribed]

theorem ofChunks_eq (chunks : List Bytes) : ofChunks chunks = prescribed chunks.flatten := by
  rw [ofChunks, WordCounter.foldl_feed, tally_feed]

theorem ofBytes_eq (data : Bytes) : ofBytes data = prescribed data := by
  rw [ofBytes, ofChunks_eq, List.flatten_singleton]

/-! ## Streams and files -/

variable {s : Stream} {size : ReadSize} {t : FileTree} {name : Text} {data : Bytes} {n : Int}

theorem ofStream_of_readsOut (name : Text) (out : s.ReadsOut size) :
    (ofStream name size s).1 = .ok (prescribed s.ahead) := by
  simp only [ofStream, out.fault_readAll, ofChunks_eq, out.flatten_readAll]

theorem ofStream_of_refusal (name : Text) {fault : Fault}
    (refused : s.refusal? size = some fault) : (ofStream name size s).1 = .error fault := by
  simp only [ofStream, Stream.fault_readAll_of_refusal refused,
    Stream.asUnreadable_of_refusal refused]

theorem flatten_slicesFrom {size : Nat} (positive : 0 < size) (done : List Bytes) (data : Bytes) :
    (slicesFrom size done data).flatten = done.reverse.flatten ++ data := by
  fun_induction slicesFrom size done data with
  | case1 done data ended =>
      rw [ended.resolve_right (Nat.ne_of_gt positive), List.append_nil]
  | case2 done data _ _ ih =>
      rw [ih, List.reverse_cons, List.flatten_append, List.flatten_singleton, List.append_assoc,
        List.take_append_drop]

/-- Slices of a positive size lose nothing. -/
theorem flatten_slices {size : Nat} (positive : 0 < size) (data : Bytes) :
    (slices size data).flatten = data :=
  flatten_slicesFrom positive [] data

/-- Reading gets everything, unless it is asked for nothing, or for a number of bytes that a file
refuses. -/
theorem ofStream_ofInt (name : Text) (n : Int) (data : Bytes) :
    (ofStream name (.ofInt n) (.ofFile data)).1 =
      match (Stream.ofFile data).refusal? (.ofInt n) with
      | some fault => .error fault
      | none => if n = 0 then .ok {} else .ok (prescribed data) := by
  split
  next refused => exact ofStream_of_refusal name refused
  next accepted =>
    split
    next zero =>
      obtain ⟨fault, pieces⟩ := Stream.readAll_zero (s := .ofFile data) rfl
      subst zero
      show (ofStream name (.atMost 0) (.ofFile data)).1 = _
      simp only [ofStream, fault, pieces]
      rfl
    next nonzero =>
      have takes := Stream.takes_ofInt nonzero (Stream.not_refuses_iff.mpr accepted)
      exact ofStream_of_readsOut name ((Stream.delivers_ofFile data).readsOut takes)

/-- What is counted in a file with a buffer of a size. One that is not positive finds nothing. -/
def countedWith (buffer : Int) (data : Bytes) : Tally :=
  if 0 < buffer then prescribed data else {}

/-- A file is counted with a buffer of the size, be it rightly or not: the size is one that files
take, or the file is larger and is mapped. -/
def CountsWith (buffer : Int) (data : Bytes) : Prop :=
  FileSize buffer ∨ data ≠ [] ∧ buffer < data.length

instance (buffer : Int) (data : Bytes) : Decidable (CountsWith buffer data) :=
  inferInstanceAs (Decidable (FileSize buffer ∨ data ≠ [] ∧ buffer < data.length))

theorem prescribed_nil : prescribed [] = {} := by
  simp [prescribed]

theorem countFile_of_opened (opened : t.openRaw name = .ok data) (n : Int) :
    (countFile t name (.int n)).tally =
      if (data.length : Int) ≤ n ∨ data = [] ∨ n = 0 then
        (ofStream name (.ofInt n) (.ofFile data)).1
      else if n < 0 then .ok {}
      else .ok (prescribed data) := by
  have whole (positive : 0 < n) : ofChunks (slices n.toNat data) = prescribed data := by
    rw [ofChunks_eq, flatten_slices (by omega)]
  have size : ReadSize.ofValue (.int n) = .ofInt n := rfl
  have held : (Stream.ofFile data).whole = data := rfl
  have file : (Stream.ofFile data).isFile = true := rfl
  rw [countFile, opened]
  simp only [countOpened, Except.map, Value.int?, size, file, held, List.isEmpty_iff, ↓reduceIte]
  by_cases larger : (data.length : Int) ≤ n
  · rw [if_pos larger, if_pos (.inl larger)]
  · rw [if_neg larger]
    by_cases empty : data = []
    · rw [if_pos empty, if_pos (.inr (.inl empty))]
    · rw [if_neg empty]
      by_cases zero : n = 0
      · rw [if_pos zero, if_pos (.inr (.inr zero))]
      · rw [if_neg zero, if_neg (not_or.mpr ⟨larger, not_or.mpr ⟨empty, zero⟩⟩)]
        split
        next => rfl
        next notNegative => rw [whole (by omega)]

/-- What a file is counted as, for every buffer size. -/
theorem tally_countFile (opened : t.openRaw name = .ok data) (n : Int) :
    (countFile t name (.int n)).tally =
      if CountsWith n data then .ok (countedWith n data) else .error (sizeFault n) := by
  rw [countFile_of_opened opened, countedWith]
  by_cases mapped : data ≠ [] ∧ n < data.length
  · rw [if_pos (c := CountsWith n data) (.inr mapped)]
    have larger : ¬ (data.length : Int) ≤ n := Int.not_le.mpr mapped.2
    obtain negative | zero | positive := Int.lt_trichotomy n 0
    · rw [if_neg (by simp only [larger, mapped.1, false_or]; omega), if_pos negative,
        if_neg (by omega)]
    · rw [if_pos (.inr (.inr zero)), ofStream_ofInt, zero]
      rfl
    · rw [if_neg (by simp only [larger, mapped.1, false_or]; omega), if_neg (by omega),
        if_pos positive]
  · -- The file is read, since it is empty or no larger than the buffer.
    have counts : CountsWith n data ↔ FileSize n := or_iff_left mapped
    have read : (data.length : Int) ≤ n ∨ data = [] ∨ n = 0 := by
      by_cases empty : data = []
      · exact .inr (.inl empty)
      · exact .inl (Int.not_lt.mp fun less => mapped ⟨empty, less⟩)
    rw [if_pos read, ofStream_ofInt, Stream.refusal?_ofFile]
    simp only [counts]
    by_cases takes : FileSize n
    · simp only [takes, ↓reduceIte]
      by_cases empty : data = []
      · simp only [empty, prescribed_nil, ite_self]
      · have inhabited : 0 < data.length := List.length_pos_iff.mpr empty
        have positive : 0 < n := by
          have := Int.not_lt.mp fun less => mapped ⟨empty, less⟩
          omega
        rw [if_neg (Int.ne_of_gt positive), if_pos positive]
    · simp only [takes, ↓reduceIte]

end Tally

/-- The counts of data are its line feeds, its words and its bytes. It does not matter how the data
is cut into chunks, whether bytes are counted one by one or each chunk as a whole, nor how a stream
splits it or in what positive size it is read. A file is counted so with every positive buffer size
that is asked for and that the system can take, and with every one below the size of the file; with
any other positive size it is not counted at all. -/
theorem counts_independent_of_chunks (data : Bytes) :
    (∀ chunks : List Bytes, chunks.flatten = data →
      Tally.ofChunks chunks = .prescribed data ∧
      (chunks.foldl WordCounter.extend {}).tally = .prescribed data) ∧
    Tally.ofBytes data = .prescribed data ∧
    (∀ (s : Stream) (name : Text) (n : Int), s.ahead = data → s.NeverStalls → s.Lasts → 0 < n →
      (¬ s.Refuses (.ofInt n) → (Tally.ofStream name (.ofInt n) s).1 = .ok (.prescribed data)) ∧
      (s.Refuses (.ofInt n) → (Tally.ofStream name (.ofInt n) s).1 = .error .tooLarge)) ∧
    ∀ (t : FileTree) (name : Text) (n : Int), t.openRaw name = .ok data → 0 < n →
      (n < sizeBound ∨ n < data.length →
        (countFile t name (.int n)).tally = .ok (.prescribed data)) ∧
      (sizeBound ≤ n ∧ data.length ≤ n →
        (countFile t name (.int n)).tally = .error .tooLarge) := by
  refine ⟨?_, Tally.ofBytes_eq data, ?_, ?_⟩
  · rintro chunks rfl
    have same : WordCounter.extend = WordCounter.feed :=
      funext₂ fun c chunk => (c.feed_eq_extend chunk).symm
    rw [same]
    exact ⟨Tally.ofChunks_eq chunks, Tally.ofChunks_eq chunks⟩
  · rintro s name n rfl never lasts positive
    refine ⟨fun accepts => ?_, fun refuses => ?_⟩
    · have takes := Stream.takes_ofInt (Int.ne_of_gt positive) accepts
      exact Tally.ofStream_of_readsOut name ⟨takes, never, lasts⟩
    · exact Tally.ofStream_of_refusal name (Stream.refusal?_of_positive positive refuses)
  · intro t name n opened positive
    rw [Tally.tally_countFile opened n, Tally.countedWith, if_pos positive]
    refine ⟨fun fits => if_pos ?_, fun large => ?_⟩
    · obtain taken | larger := fits
      · exact .inl ⟨by omega, taken⟩
      · refine .inr ⟨?_, larger⟩
        rintro rfl
        exact Int.not_le.mpr positive (Int.le_of_lt larger)
    · have unfit : ¬ SystemSize n := fun fits => Int.not_le.mpr fits.2 large.1
      rw [sizeFault, if_neg unfit, if_neg]
      rintro (taken | ⟨-, larger⟩)
      · exact Int.not_le.mpr taken.2 large.1
      · exact Int.not_le.mpr larger large.2

/-- A word that is cut by a chunk and by the slices of a buffer, and read in pieces of one byte from
a stream: the counts are the same each time. -/
theorem counts_independent_of_chunks_cutWord :
    let data : Bytes := [0x61, 0x62, 0x20, 0x63, 0x0A]
    let t : FileTree := [("f", .file {} data)]
    let s : Stream := { whole := data, allowance := fun _ => some 1 }
    t.openRaw "f" = .ok data ∧ s.NeverStalls ∧ s.Lasts ∧ ¬ s.Refuses (.ofInt 3) ∧
      Tally.ofChunks [[0x61], [], [0x62, 0x20, 0x63], [0x0A]] = ⟨1, 2, 5, 5⟩ ∧
      (Tally.ofStream "s" (.ofInt 3) s).1 = .ok ⟨1, 2, 5, 5⟩ ∧
      (countFile t "f" (.int 1)).tally = .ok ⟨1, 2, 5, 5⟩ ∧
      (countFile t "f" (.int 5)).tally = .ok ⟨1, 2, 5, 5⟩ := by
  intro data t s
  have counts : Tally.prescribed data = ⟨1, 2, 5, 5⟩ := by decide +kernel
  have opened : t.openRaw "f" = .ok data := by cbv
  have never : s.NeverStalls := fun _ => by simp [s]
  have lasts : s.Lasts := fun _ _ fails => by cases fails
  have accepts : ¬ s.Refuses (.ofInt 3) := Stream.not_refuses_iff.mpr rfl
  obtain ⟨chunks, -, streams, files⟩ := counts_independent_of_chunks data
  rw [counts] at chunks streams files
  exact ⟨opened, never, lasts, accepts, (chunks _ rfl).1,
    (streams s "s" 3 rfl never lasts (by decide)).1 accepts,
    (files t "f" 1 opened (by decide)).1 (.inl (by decide)),
    (files t "f" 5 opened (by decide)).1 (.inl (by decide))⟩

/-- A file of one byte is not counted with a buffer size that the system cannot take. -/
theorem not_counted_with_large_buffer :
    let t : FileTree := [("a", .file {} [0x78])]
    t.openRaw "a" = .ok [0x78] ∧ Tally.ofBytes [0x78] = ⟨0, 1, 1, 1⟩ ∧
      (countFile t "a" (.int (2 ^ 63))).tally = .error .tooLarge := by
  intro t
  have opened : t.openRaw "a" = .ok [0x78] := by cbv
  refine ⟨opened, rfl, ?_⟩
  rw [Tally.tally_countFile opened]
  rfl

end Bytewise
