import Bytewise.Proofs.Classifier.Markers
import Bytewise.Proofs.Classifier.Scan
import Bytewise.Source.LanguageTable

/-!
# The scan as a loop over offsets

`Scan.run` goes along the bytes of a file and carries the byte before the cursor with it, so there
is no place outside of the file at which it could look. Over a buffer the same scan is a loop that
keeps an offset and asks for a byte or a slice of the buffer whenever it needs one, and there a look
can go astray: an index may be too large, a slice may be cut short by the end of the buffer, and an
index of minus one means the last byte, not the one before the first.

`Cursor.iterate` is one iteration of that loop, with a record of its looks. What it comes to is put
together from its parts by `Inspection.Gives`, and is the step of the scan at the same place
(`Cursor.iterate_gives`). `Cursor.Follows` is what iterations keep. From it follows that the loop
stays inside the buffer, ends, and comes to the tally of the scan
(`Language.loop_stays_inside_and_ends`).
-/

namespace Bytewise

namespace Scan

/-- A marker that a step takes is there in full. -/
theorem taken_step_le (m : Markers) (s : Scan) (b : UInt8) (rest : Bytes) :
    (s.step m b rest).2 ≤ rest.length := by
  have whole {marker : Bytes} (found : marker <+: b :: rest) :
      marker.length - 1 ≤ rest.length := by
    have short := found.length_le
    rw [List.length_cons] at short
    omega
  have rule := step_rule m s b rest
  generalize s.step m b rest = next at rule
  cases rule with
  | openBlock _ _ _ found => exact whole found
  | openLine _ _ _ _ found => exact whole found
  | closeBlock _ _ found => exact whole found
  | _ => exact Nat.zero_le _

/-- The scan behind a step and the bytes that a marker takes with it. -/
def landing (m : Markers) (s : Scan) (b : UInt8) (rest : Bytes) : Scan :=
  { (s.step m b rest).1 with previous := (rest.take (s.step m b rest).2).getLastD b }

theorem run_cons_eq_landing (m : Markers) (s : Scan) (b : UInt8) (rest : Bytes) :
    run m 0 s (b :: rest) = run m 0 (s.landing m b rest) (rest.drop (s.step m b rest).2) := by
  have taken := List.length_take_of_le (taken_step_le m s b rest)
  have passed := run_taken m { (s.step m b rest).1 with previous := b }
    (rest.take (s.step m b rest).2) (rest.drop (s.step m b rest).2)
  rw [taken, List.take_append_drop] at passed
  exact passed

end Scan

/-! ## Looking at a buffer -/

/-- The byte at an index. A negative index counts from the end of the buffer. -/
def byteAt? (data : Bytes) : Int → Option UInt8
  | .ofNat i => data[i]?
  | .negSucc i => data.reverse[i]?

inductive Look where
  | byte (index : Int)
  /-- The bytes from one offset up to another; those that the buffer does not have are left out. -/
  | slice (start stop : Nat)
  deriving DecidableEq, Repr

/-- The looks that are meant when the cursor is at an offset: at the byte there, at the byte before
it, and at a slice from there on that the buffer has in full. -/
inductive Look.Inside (data : Bytes) (offset : Nat) : Look → Prop
  | here (inside : offset < data.length) : Inside data offset (.byte offset)
  | behind (started : 1 ≤ offset) (inside : offset ≤ data.length) :
      Inside data offset (.byte (offset - 1))
  | ahead {stop : Nat} (forward : offset ≤ stop) (inside : stop ≤ data.length) :
      Inside data offset (.slice offset stop)

/-- A part of an iteration. It adds to a record of looks, and fails if it asks for a byte that the
buffer does not have. -/
abbrev Inspection := StateT (List Look) Option

namespace Inspection

def byte (data : Bytes) (index : Int) : Inspection UInt8 := fun looks =>
  (byteAt? data index).map fun b => (b, looks ++ [.byte index])

def slice (data : Bytes) (start stop : Nat) : Inspection Bytes := fun looks =>
  some (data.extract start stop, looks ++ [.slice start stop])

/-- Does a marker stand at an offset? Where it does not fit into the buffer nothing is compared. -/
def finds (data marker : Bytes) (offset : Nat) : Inspection Bool := do
  if offset + marker.length ≤ data.length then
    let found ← slice data offset (offset + marker.length)
    return found = marker
  else return false

variable {α β : Type} {ok : Look → Prop} {part : Inspection α} {next : α → Inspection β} {a : α}
  {b : β}

/-- A part of an iteration comes to a value, and all its looks satisfy a condition. -/
def Gives (ok : Look → Prop) (part : Inspection α) (a : α) : Prop :=
  ∀ before, ∃ looks, part.run before = some (a, before ++ looks) ∧ ∀ look ∈ looks, ok look

theorem gives_pure (ok : Look → Prop) (a : α) : Gives ok (pure a) a :=
  fun before => ⟨[], by simp, by simp⟩

theorem Gives.bind (first : Gives ok part a) (second : Gives ok (next a) b) :
    Gives ok (part >>= next) b := by
  intro before
  obtain ⟨looks, parts, inside⟩ := first before
  obtain ⟨more, rest, inside'⟩ := second (before ++ looks)
  refine ⟨looks ++ more, ?_, List.forall_mem_append.mpr ⟨inside, inside'⟩⟩
  rw [StateT.run_bind, parts, ← List.append_assoc]
  exact rest

theorem gives_byte {data : Bytes} {index : Int} {b : UInt8} (present : byteAt? data index = some b)
    (allowed : ok (.byte index)) : Gives ok (byte data index) b := by
  intro before
  refine ⟨[.byte index], ?_, List.forall_mem_singleton.mpr allowed⟩
  simp [byte, StateT.run, present]

theorem gives_slice (data : Bytes) {start stop : Nat} (allowed : ok (.slice start stop)) :
    Gives ok (slice data start stop) (data.extract start stop) :=
  fun _ => ⟨[.slice start stop], rfl, List.forall_mem_singleton.mpr allowed⟩

variable {front rest marker : Bytes}

/-- The slice that is compared with a marker is there in full, or none is compared. -/
theorem gives_finds {found : Bool} (decides : found = true ↔ marker <+: rest) :
    Gives (Look.Inside (front ++ rest) front.length) (finds (front ++ rest) marker front.length)
      found := by
  rw [finds]
  by_cases fits : front.length + marker.length ≤ (front ++ rest).length
  · rw [if_pos fits]
    have same : decide ((front ++ rest).extract front.length (front.length + marker.length) =
        marker) = found := by
      rw [Bool.eq_iff_iff, decide_eq_true_iff, decides, List.prefix_iff_eq_take]
      simp [eq_comm]
    refine (gives_slice _ (.ahead (Nat.le_add_right _ _) fits)).bind ?_
    rw [same]
    exact gives_pure _ _
  · rw [if_neg fits]
    have absent : ¬ marker <+: rest := by
      intro begins
      have short := begins.length_le
      rw [List.length_append] at fits
      omega
    obtain rfl : found = false := by simpa [absent] using decides
    exact gives_pure _ _

theorem gives_finds_of_prefix (found : marker <+: rest) :
    Gives (Look.Inside (front ++ rest) front.length) (finds (front ++ rest) marker front.length)
      true :=
  gives_finds (iff_of_true rfl found)

theorem gives_finds_of_not_prefix (absent : ¬ marker <+: rest) :
    Gives (Look.Inside (front ++ rest) front.length) (finds (front ++ rest) marker front.length)
      false :=
  gives_finds (iff_of_false Bool.false_ne_true absent)

end Inspection

/-! ## The loop -/

structure Cursor where
  offset : Nat := 0
  mode : Mode := .code
  /-- Has the current line shown code, or a comment? -/
  hasCode : Bool := false
  hasComment : Bool := false
  tally : LineTally := {}
  deriving DecidableEq, Repr

namespace Cursor

/-- A scan that stands at an offset. The loop does not remember the byte before it. -/
def ofScan (offset : Nat) (s : Scan) : Cursor :=
  ⟨offset, s.mode, s.hasCode, s.hasComment, s.tally⟩

def closeLine (c : Cursor) : LineTally :=
  Scan.closeLine { mode := c.mode, hasCode := c.hasCode, hasComment := c.hasComment,
                   tally := c.tally }

def advance (c : Cursor) (count : Nat) : Cursor := { c with offset := c.offset + count }

def nextLine (c : Cursor) : Cursor where
  offset := c.offset + 1
  mode := if c.mode = .lineComment then .code else c.mode
  tally := c.closeLine

/-- What an iteration comes to at a byte that is not blank. -/
def consume (m : Markers) (data : Bytes) (c : Cursor) (b : UInt8) : Inspection Cursor :=
  match c.mode with
  | .string quote => do
    let inside := { c with hasCode := true }
    if b = quote then
      let before ← .byte data (c.offset - 1)
      if before = Scan.backslash then return inside.advance 1
      else return { inside with mode := .code }.advance 1
    else return inside.advance 1
  | .code => do
    if Scan.isQuote b then return { c with mode := .string b, hasCode := true }.advance 1
    else if ← .finds data m.blockStart c.offset then
      return { c with mode := .blockComment, hasComment := true }.advance m.blockStart.length
    else if ← .finds data m.line c.offset then
      return { c with mode := .lineComment, hasComment := true }.advance m.line.length
    else return { c with hasCode := true }.advance 1
  | .blockComment => do
    if ← .finds data m.blockEnd c.offset then
      return { c with mode := .code, hasComment := true }.advance m.blockEnd.length
    else return c.advance 1
  | .lineComment => return c.advance 1

/-- One iteration of the loop, for a cursor before the end of the buffer. -/
def iterate (m : Markers) (data : Bytes) (c : Cursor) : Inspection Cursor := do
  let b ← .byte data c.offset
  if b = newline then return c.nextLine
  else if isBlankByte b then return c.advance 1
  else c.consume m data b

/-- The loop after a number of iterations. It goes on while the cursor is before the end. -/
inductive After (m : Markers) (start : LineTally) (data : Bytes) : Nat → Cursor → Prop
  | start : After m start data 0 { tally := start }
  | next {n : Nat} {c next : Cursor} {looks : List Look} (here : After m start data n c)
      (inside : c.offset < data.length)
      (iteration : (c.iterate m data).run [] = some (next, looks)) :
      After m start data (n + 1) next

/-- The tally behind the loop: a line that was not closed by a line feed is closed now. -/
def finish (data : Bytes) (c : Cursor) : LineTally :=
  match data.getLast? with
  | none => c.tally
  | some b => if b = newline then c.tally else c.closeLine

variable {m : Markers} {start : LineTally} {data front rest : Bytes} {s : Scan} {b : UInt8}
  {c next : Cursor} {n : Nat}

theorem byteAt?_here (front : Bytes) (b : UInt8) (rest : Bytes) :
    byteAt? (front ++ b :: rest) front.length = some b := by
  simp [byteAt?]

/-- Behind the start of a buffer, the byte at the index below an offset is the one before it. -/
theorem byteAt?_behind (started : front ≠ []) (rest : Bytes) :
    byteAt? (front ++ rest) (front.length - 1) = front.getLast? := by
  have positive := List.length_pos_iff.mpr started
  rw [show (front.length - 1 : Int) = .ofNat (front.length - 1) by simp; omega, byteAt?,
    List.getElem?_append_left (by omega), List.getLast?_eq_getElem?]

/-- In a string the loop looks back only at a quote that may close it. A string is open, so there is
a byte to look back at. -/
theorem consume_string_gives {quote : UInt8} (mode : s.mode = .string quote)
    (last : front.getLast? = some s.previous) :
    ((ofScan front.length s).consume m (front ++ b :: rest) b).Gives
      (Look.Inside (front ++ b :: rest) front.length)
      (ofScan (front.length + 1)
        { s with
            hasCode := true
            mode := if b = quote ∧ s.previous ≠ Scan.backslash then .code else s.mode }) := by
  have started : front ≠ [] := by
    rintro rfl
    cases last
  have behind : byteAt? (front ++ b :: rest) (front.length - 1) = some s.previous :=
    (byteAt?_behind started _).trans last
  have allowed : Look.Inside (front ++ b :: rest) front.length (.byte (front.length - 1)) :=
    .behind (List.length_pos_iff.mpr started) (by simp)
  simp only [consume, ofScan, mode]
  by_cases closing : b = quote
  · rw [if_pos closing]
    refine (Inspection.gives_byte behind allowed).bind ?_
    by_cases escaped : s.previous = Scan.backslash
    · rw [if_pos escaped, if_neg fun closes => closes.2 escaped]
      exact Inspection.gives_pure _ _
    · rw [if_neg escaped, if_pos ⟨closing, escaped⟩]
      exact Inspection.gives_pure _ _
  · rw [if_neg closing, if_neg fun closes => closing closes.1]
    exact Inspection.gives_pure _ _

/-- At a byte that is not blank, the loop does what the step of a scan at the same place does, if
the scan knows the byte before it wherever a string is open. -/
theorem consume_gives (nonempty : m.Nonempty) (visible : isBlankByte b = false)
    (known : ∀ quote, s.mode = .string quote → front.getLast? = some s.previous) :
    ((ofScan front.length s).consume m (front ++ b :: rest) b).Gives
      (Look.Inside (front ++ b :: rest) front.length)
      (ofScan (front.length + 1 + (s.step m b rest).2) (s.step m b rest).1) := by
  have jump {marker : Bytes} (filled : marker ≠ []) :
      front.length + 1 + (marker.length - 1) = front.length + marker.length := by
    have positive := List.length_pos_iff.mpr filled
    omega
  have rule := Scan.step_rule m s b rest
  generalize s.step m b rest = next at rule
  cases rule with
  | lineFeed feed => exact absurd feed (Scan.ne_newline_of_visible visible)
  | blank _ blank => simp [visible] at blank
  | inString _ mode => exact consume_string_gives mode (known _ mode)
  | openString _ mode quoted =>
      simp only [consume, ofScan, mode]
      rw [if_pos quoted]
      exact Inspection.gives_pure _ _
  | openBlock _ mode unquoted found =>
      simp only [consume, ofScan, mode, jump nonempty.blockStart]
      rw [if_neg (by simp [unquoted])]
      refine (Inspection.gives_finds_of_prefix found).bind ?_
      exact Inspection.gives_pure _ _
  | openLine _ mode unquoted noBlock found =>
      simp only [consume, ofScan, mode, jump nonempty.line]
      rw [if_neg (by simp [unquoted])]
      refine (Inspection.gives_finds_of_not_prefix noBlock).bind ?_
      refine (Inspection.gives_finds_of_prefix found).bind ?_
      exact Inspection.gives_pure _ _
  | inCode _ mode unquoted noBlock noLine =>
      simp only [consume, ofScan, mode]
      rw [if_neg (by simp [unquoted])]
      refine (Inspection.gives_finds_of_not_prefix noBlock).bind ?_
      refine (Inspection.gives_finds_of_not_prefix noLine).bind ?_
      exact Inspection.gives_pure _ _
  | closeBlock _ mode found =>
      simp only [consume, ofScan, mode, jump nonempty.blockEnd]
      refine (Inspection.gives_finds_of_prefix found).bind ?_
      exact Inspection.gives_pure _ _
  | inBlock _ mode absent =>
      simp only [consume, ofScan, mode]
      refine (Inspection.gives_finds_of_not_prefix absent).bind ?_
      exact Inspection.gives_pure _ _
  | inLine _ mode =>
      simp only [consume, ofScan, mode]
      exact Inspection.gives_pure _ _

/-- An iteration of the loop is the step of a scan at the same place, and none of its looks goes
astray. -/
theorem iterate_gives (nonempty : m.Nonempty)
    (known : ∀ quote, s.mode = .string quote → front.getLast? = some s.previous) :
    ((ofScan front.length s).iterate m (front ++ b :: rest)).Gives
      (Look.Inside (front ++ b :: rest) front.length)
      (ofScan (front.length + 1 + (s.step m b rest).2) (s.step m b rest).1) := by
  refine (Inspection.gives_byte (byteAt?_here front b rest) (.here (by simp))).bind ?_
  by_cases feed : b = newline
  · rw [if_pos feed, (Scan.Rule.lineFeed feed).step_eq]
    exact Inspection.gives_pure _ _
  · rw [if_neg feed]
    cases visible : isBlankByte b with
    | true =>
        rw [if_pos rfl, (Scan.Rule.blank feed visible).step_eq]
        exact Inspection.gives_pure _ _
    | false =>
        rw [if_neg Bool.false_ne_true]
        exact consume_gives nonempty visible known

/-! ## What iterations keep -/

/-- The loop stands inside the buffer where a scan stands that has the same result. It has made no
more iterations than its offset, and an open string was opened before the cursor. -/
structure Follows (m : Markers) (start : LineTally) (data : Bytes) (n : Nat) (c : Cursor)
    (s : Scan) : Prop where
  same : c = ofScan c.offset s
  inside : c.offset ≤ data.length
  paced : n ≤ c.offset
  previous : s.previous = (data.take c.offset).getLastD 0
  opened : ∀ quote, s.mode = .string quote → 1 ≤ c.offset
  result : Scan.run m 0 s (data.drop c.offset) = Scan.run m 0 { tally := start } data

theorem follows_start : Follows m start data 0 { tally := start } { tally := start } where
  same := rfl
  inside := Nat.zero_le _
  paced := Nat.le_refl _
  previous := rfl
  opened := nofun
  result := rfl

/-- Where a string is open, there are bytes before the cursor. -/
theorem Follows.take_ne_nil (follows : Follows m start data n c s) {quote : UInt8}
    (inString : s.mode = .string quote) : data.take c.offset ≠ [] := by
  have opened := follows.opened quote inString
  have length := List.length_take_of_le follows.inside
  rw [← List.length_pos_iff]
  omega

/-- An iteration before the end of the buffer does not fail, looks only where it is meant to, and
brings the loop further. -/
theorem Follows.step (nonempty : m.Nonempty) (follows : Follows m start data n c s)
    (unfinished : c.offset < data.length) :
    ∃ next s', (c.iterate m data).Gives (Look.Inside data c.offset) next ∧
      c.offset < next.offset ∧ Follows m start data (n + 1) next s' := by
  obtain ⟨front, b, rest, rfl, place⟩ :
      ∃ front b rest, data = front ++ b :: rest ∧ c.offset = front.length := by
    refine ⟨data.take c.offset, data[c.offset], data.drop (c.offset + 1), ?_, ?_⟩
    · rw [← List.drop_eq_getElem_cons unfinished, List.take_append_drop]
    · rw [List.length_take_of_le follows.inside]
  have known (quote : UInt8) (inString : s.mode = .string quote) :
      front.getLast? = some s.previous := by
    have started := follows.take_ne_nil inString
    have last := follows.previous
    rw [place, List.take_left] at started last
    rw [last, List.getLastD_eq_getLast?, List.getLast?_eq_some_getLast started]
    rfl
  have paced := follows.paced
  have fits := Scan.taken_step_le m s b rest
  have result := follows.result
  rw [place, List.drop_left, Scan.run_cons_eq_landing] at result
  rw [follows.same, place]
  refine ⟨ofScan (front.length + 1 + (s.step m b rest).2) (s.landing m b rest),
    s.landing m b rest, iterate_gives nonempty known, ?_, rfl, ?_, ?_, ?_, fun _ _ => ?_, ?_⟩
  all_goals simp only [ofScan]
  · omega
  · rw [List.length_append, List.length_cons]
    omega
  · omega
  · rw [Nat.add_assoc, List.take_length_add_append, Nat.add_comm, List.take_succ_cons,
      List.getLastD_eq_getLast?, List.getLast?_append, List.getLast?_cons, Option.some_or,
      Option.getD_some, ← List.getLastD_eq_getLast?]
    rfl
  · omega
  · rw [Nat.add_assoc, List.drop_length_add_append, Nat.add_comm, List.drop_succ_cons]
    exact result

theorem exists_follows (nonempty : m.Nonempty) (after : After m start data n c) :
    ∃ s, Follows m start data n c s := by
  induction after with
  | start => exact ⟨_, follows_start⟩
  | next _ unfinished iteration ih =>
      obtain ⟨s, follows⟩ := ih
      obtain ⟨next, s', gives, _, follows'⟩ := follows.step nonempty unfinished
      obtain ⟨looks, comes, _⟩ := gives []
      rw [comes] at iteration
      cases iteration
      exact ⟨s', follows'⟩

/-- The loop ends, because every iteration brings it closer to the end of the buffer. -/
theorem exists_after_end (nonempty : m.Nonempty) (after : After m start data n c) :
    ∃ n' c', After m start data n' c' ∧ c'.offset = data.length := by
  induction left : data.length - c.offset using Nat.strongRecOn generalizing n c with
  | ind left ih =>
      obtain ⟨s, follows⟩ := exists_follows nonempty after
      by_cases unfinished : c.offset < data.length
      · obtain ⟨next, s', gives, further, _⟩ := follows.step nonempty unfinished
        obtain ⟨looks, comes, _⟩ := gives []
        exact ih (data.length - next.offset) (by omega) (.next after unfinished comes) rfl
      · exact ⟨n, c, after, by have := follows.inside; omega⟩

/-- A loop that has come to the end of the buffer has the tally of the scan. -/
theorem Follows.finish_eq (follows : Follows m start data n c s)
    (ended : c.offset = data.length) : c.finish data = m.classify start data := by
  have result := follows.result
  have previous := follows.previous
  rw [ended, List.drop_length, Scan.run] at result
  rw [ended, List.take_length] at previous
  rw [follows.same, finish]
  cases last : data.getLast? with
  | none =>
      obtain rfl := List.getLast?_eq_none_iff.mp last
      rw [result]
      rfl
  | some b =>
      have nonempty : data ≠ [] := by
        rintro rfl
        cases last
      rw [Markers.classify_of_ne_nil nonempty, ← result, Scan.finish, previous,
        List.getLastD_eq_getLast?, last]
      rfl

end Cursor

/-- The loop of the scan is safe and ends. At every state that it comes to, after any number of
iterations, the cursor is inside the buffer and there have been no more iterations than bytes before
it; if a string is open there is a byte before the cursor, and that is the one at the index below;
if the cursor is not at the end, the next iteration does not fail, looks only at the byte at the
cursor, the byte before it and slices that the buffer has in full, and moves the cursor on; if it is
at the end, the tally is that of the scan. So the loop comes to the end after at most as many
iterations as there are bytes. -/
theorem Language.loop_stays_inside_and_ends (l : Language) (ascii : l.AsciiMarkers)
    (start : LineTally) (data : Bytes) :
    ∃ m, l.markers = .ok m ∧
      (∀ n c, Cursor.After m start data n c →
        n ≤ c.offset ∧ c.offset ≤ data.length ∧
        (∀ quote, c.mode = .string quote →
          1 ≤ c.offset ∧ byteAt? data (c.offset - 1) = (data.take c.offset).getLast?) ∧
        (c.offset < data.length →
          ∃ next looks, (c.iterate m data).run [] = some (next, looks) ∧
            c.offset < next.offset ∧ next.offset ≤ data.length ∧
            ∀ look ∈ looks, Look.Inside data c.offset look) ∧
        (c.offset = data.length → c.finish data = m.classify start data)) ∧
      ∃ n c, n ≤ data.length ∧ Cursor.After m start data n c ∧ c.offset = data.length := by
  obtain ⟨m, encoded⟩ := exists_markers_iff.mpr ascii
  have nonempty := nonempty_of_markers encoded
  refine ⟨m, encoded, fun n c after => ?_, ?_⟩
  · obtain ⟨s, follows⟩ := Cursor.exists_follows nonempty after
    refine ⟨follows.paced, follows.inside, fun quote inString => ?_, fun unfinished => ?_,
      follows.finish_eq⟩
    · have inString' : s.mode = .string quote := by rwa [follows.same] at inString
      have behind := Cursor.byteAt?_behind (follows.take_ne_nil inString') (data.drop c.offset)
      rw [List.length_take_of_le follows.inside, List.take_append_drop] at behind
      exact ⟨follows.opened quote inString', behind⟩
    · obtain ⟨next, s', gives, further, follows'⟩ := follows.step nonempty unfinished
      obtain ⟨looks, comes, inside⟩ := gives []
      exact ⟨next, looks, comes, further, follows'.inside, inside⟩
  · have begun : Cursor.After m start data 0 { tally := start } := .start
    obtain ⟨n, c, after, ended⟩ := Cursor.exists_after_end nonempty begun
    obtain ⟨s, follows⟩ := Cursor.exists_follows nonempty after
    exact ⟨n, c, ended ▸ follows.paced, after, ended⟩

/-- A string with an escaped quote, at which the loop looks back, and at the end of the file a byte
with which two markers begin that do not fit into the file. -/
theorem Language.loop_stays_inside_and_ends_slashes :
    let l := withSlashComments 0 "C" [".c", ".h"]
    let data := Text.encode "'\\''/"
    l.AsciiMarkers ∧ ∃ m, l.markers = .ok m ∧
      ∃ n c, n ≤ 5 ∧ Cursor.After m {} data n c ∧ c.offset = 5 ∧ c.finish data = { code := 1 } := by
  intro l data
  have ascii : l.AsciiMarkers := ⟨by decide, by decide, by decide⟩
  obtain ⟨m, encoded, safe, n, c, short, after, ended⟩ :=
    loop_stays_inside_and_ends l ascii {} data
  refine ⟨ascii, m, encoded, n, c, short, after, ended, ?_⟩
  obtain ⟨-, -, -, -, counted⟩ := safe n c after
  rw [counted ended]
  cases encoded
  decide

end Bytewise
