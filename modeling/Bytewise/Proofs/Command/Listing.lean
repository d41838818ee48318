import Bytewise.Package.Standard
import Bytewise.Proofs.Checksum.Register
import Bytewise.Proofs.Command.Verification

/-!
# Verifying what was written

The program writes a listing and the program reads it, with different rules for where a line ends:
a line is written with a line feed behind it, and a listing is cut at every line break of Unicode.
Besides, style sequences are dropped from whatever is written, and so from the names in a listing.
So a listing of files that have not changed verifies, each file in turn, if and only if no name
holds a line break of any kind or a style sequence (`written_listing_verifies_iff`).
-/

namespace Bytewise

/-! ## Lines that digests write -/

theorem Symbol.isBreak_of_isBlank {s : Symbol} (visible : s.isBlank = false) :
    s.isBreak = false := by
  cases s with
  | stray b => rfl
  | char c =>
      simp [isBlank, isBlankChar] at visible
      simp [isBreak, isLineBreak]
      omega

namespace Digest

variable {d : Digest}

theorem unbroken_hex (d : Digest) : (Text.ofChars d.hex).Unbroken := by
  intro s member
  have hex := CheckLine.isHexDigit_of_mem_hex member
  exact Symbol.isBreak_of_isBlank (CheckLine.isBlank_of_isHexDigit hex)

theorem unbroken_line (unbroken : d.name.Unbroken) : d.line.Unbroken := by
  rw [line, Text.unbroken_append, Text.unbroken_append]
  exact ⟨⟨d.unbroken_hex, by unfold Text.Unbroken; decide⟩, unbroken⟩

theorem not_mem_line_return (noReturn : .char '\r' ∉ d.name) : .char '\r' ∉ d.line := by
  rw [line, List.mem_append, List.mem_append]
  rintro ((hex | spaces) | name)
  · exact Bool.noConfusion (d.unbroken_hex _ hex)
  · revert spaces
    decide
  · exact noReturn name

end Digest

namespace Text

theorem unbroken_unstyled {t : Text} (unbroken : t.Unbroken) : t.unstyled.Unbroken :=
  fun s member => unbroken s (t.unstyled_sublist.subset member)

theorem printable_verdict {t : Text} (printable : t.Printable) :
    (t ++ Text.ofString ": OK").Printable :=
  printable_append.mpr ⟨printable, printable_ofChars _⟩

theorem unbroken_verdict {t : Text} (unbroken : t.Unbroken) :
    (t ++ Text.ofString ": OK").Unbroken :=
  unbroken_append.mpr ⟨unbroken, by unfold Text.Unbroken; decide⟩

/-- Lines that can be printed form a text that can be printed. -/
theorem printable_lines {α : Type} {g : α → Text} {xs : List α}
    (each : ∀ x ∈ xs, (g x).Printable) : Printable (xs.flatMap fun x => g x ++ [.char '\n']) := by
  intro s member
  obtain ⟨x, inside, here⟩ := List.mem_flatMap.mp member
  exact printable_append.mpr ⟨each x inside, printable_ofChars ['\n']⟩ s here

/-- Written lines are the bytes of one text. -/
theorem flatMap_encode_lines {α : Type} (g : α → Text) (xs : List α) :
    xs.flatMap (fun x => (g x ++ "\n" : Text).encode) =
      encode (xs.flatMap fun x => g x ++ [.char '\n']) := by
  rw [encode, List.flatMap_assoc]
  rfl

end Text

namespace ChecksumProgram

open Run

/-- A name that a line can hold: characters only, and no line feed or carriage return. -/
structure Writable (name : Text) : Prop where
  printable : name.Printable
  no_feed : .char '\n' ∉ name
  no_return : .char '\r' ∉ name

/-- A name that can be listed, since it is not that of standard input. -/
structure Listable (name : Text) : Prop extends Writable name where
  not_input : name ≠ Text.ofString "-"

theorem Writable.unstyled {name : Text} (writable : Writable name) : Writable name.unstyled where
  printable := Text.printable_unstyled.mpr writable.printable
  no_feed := fun feed => writable.no_feed (name.unstyled_sublist.subset feed)
  no_return := fun returned => writable.no_return (name.unstyled_sublist.subset returned)

def digestOf (a : Algorithm) (f : Text × Bytes) : Digest := ⟨a, a.checksum f.2, f.2.length, f.1⟩

/-- A file under the name with which it is shown. -/
def shown (f : Text × Bytes) : Text × Bytes := (f.1.unstyled, f.2)

/-- The listing of files under their names as they are. -/
def listingText (a : Algorithm) (files : List (Text × Bytes)) : Text :=
  files.flatMap fun f => (digestOf a f).line ++ [.char '\n']

variable {t : FileTree} {a : Algorithm} {files : List (Text × Bytes)}

theorem writable_of_shown (writable : ∀ f ∈ files, Writable f.1) :
    ∀ f ∈ files.map shown, Writable f.1 :=
  List.forall_mem_map.mpr fun f file => (writable f file).unstyled

/-- A checksum holds no style sequence, so a line is shown as that of the file as it is shown. -/
theorem lineBytes_digestOf (a : Algorithm) (f : Text × Bytes) :
    lineBytes (digestOf a f).line = ((digestOf a (shown f)).line ++ "\n" : Text).encode := by
  have front : escapeSymbol ∉ Text.ofChars (digestOf a f).hex ++ Text.ofString "  " := by
    rw [List.mem_append]
    rintro (hex | spaces)
    · cases CheckLine.isHexDigit_of_mem_hex hex
    · revert spaces
      decide
  rw [lineBytes_eq, Digest.line, Text.unstyled_append front]
  rfl

theorem lineBytes_verdict (name : Text) :
    lineBytes (name ++ Text.ofString ": OK") =
      (name.unstyled ++ Text.ofString ": OK" ++ "\n" : Text).encode := by
  have plain : ¬ (Symbol.char ':').CanStyle := by decide
  rw [lineBytes_eq]
  exact congrArg (fun t : Text => (t ++ "\n" : Text).encode)
    (Text.unstyled_append_of_not_mem plain (by decide) name)

theorem decode_listing (writable : ∀ f ∈ files, Writable f.1) :
    Utf8.decode (listingText a files).encode = listingText a files := by
  apply Utf8.decode_encode
  apply Text.printable_lines
  intro f file
  exact printable_digestLine (writable f file).printable

theorem not_mem_listing_return (writable : ∀ f ∈ files, Writable f.1) :
    .char '\r' ∉ listingText a files := by
  intro member
  obtain ⟨f, file, inside⟩ := List.mem_flatMap.mp member
  obtain line | feed := List.mem_append.mp inside
  · exact Digest.not_mem_line_return (writable f file).no_return line
  · simp at feed

/-- The line of a file reads back as the claim that the file has its checksum. -/
theorem parse_digestOf {f : Text × Bytes} (writable : Writable f.1)
    (opened : t.openRaw f.1 = .ok f.2) :
    CheckLine.parse (digestOf a f).line = .ok ⟨a.checksum f.2, f.1⟩ := by
  apply CheckLine.parse_line (d := digestOf a f) (a.checksum_lt f.2)
  · intro empty
    have : t.openRaw [] = .ok f.2 := empty ▸ opened
    cases this
  · exact writable.no_feed
  · intro s last
    have inside : s ∈ f.1 := List.mem_of_getLast? last
    have notReturn : s ≠ .char '\r' := fun same => writable.no_return (same ▸ inside)
    have notFeed : s ≠ .char '\n' := fun same => writable.no_feed (same ▸ inside)
    simp [CheckLine.isLineEnd, notReturn, notFeed]

/-- Whatever the line of a file claims, it claims of the name in it. -/
theorem name_of_parse_digestOf {f : Text × Bytes} {c : CheckLine} (unbroken : f.1.Unbroken)
    (parsed : CheckLine.parse (digestOf a f).line = .ok c) : c.name = f.1 := by
  obtain ⟨digits, ends, written, -⟩ := CheckLine.exists_written_of_parse parsed
  have noEnds : ends = [] := by
    refine List.eq_nil_iff_forall_not_mem.mpr fun s member => ?_
    have inside : s ∈ (digestOf a f).line := by
      rw [written.whole]
      exact List.mem_append_right _ member
    obtain rfl | rfl := CheckLine.isLineEnd_iff.mp (written.ends_all s member)
    · cases Digest.unbroken_line (d := digestOf a f) unbroken _ inside
    · cases Digest.unbroken_line (d := digestOf a f) unbroken _ inside
  have whole := written.whole
  rw [noEnds, List.append_nil, Digest.line, List.append_assoc] at whole
  -- The line is cut behind the digits that it begins with, in one way only.
  have fronts := congrArg (List.takeWhile CheckLine.isHexDigit) whole
  rw [CheckLine.takeWhile_isHexDigit fun s => CheckLine.isHexDigit_of_mem_hex,
    CheckLine.takeWhile_isHexDigit written.digits_hex] at fronts
  rw [fronts] at whole
  exact (List.append_cancel_left (List.append_cancel_left whole)).symm

variable {around around' : Surroundings} {stdin : Stream} {args : List Text} {lines : List Text}
  {s : Session}

/-- A listing whose names hold no line break is read back line by line. -/
theorem lines_listing (unbroken : ∀ f ∈ files, f.1.Unbroken) :
    Text.lines (listingText a files) = files.map fun f => (digestOf a f).line :=
  Text.lines_flatMap fun f file => Digest.unbroken_line (unbroken f file)

/-- A listing whose names hold no line break verifies, file by file. -/
theorem verifies_of_unbroken (inhabited : files ≠ []) (writable : ∀ f ∈ files, Writable f.1)
    (unmodified : ∀ f ∈ files, around.tree.openRaw f.1 = .ok f.2)
    (reaches : Reaches around stdin args a defaultSize (Text.lines (listingText a files)) s)
    (unbroken : ∀ f ∈ files, f.1.Unbroken) :
    ((Program.tool .checksum).run around stdin args).status = 0 ∧
      ((Program.tool .checksum).run around stdin args).out =
        s.out.bytes ++ files.flatMap fun f => lineBytes (f.1 ++ Text.ofString ": OK") := by
  rw [lines_listing unbroken] at reaches
  have zero : ((Program.tool .checksum).run around stdin args).status = 0 := by
    apply (status_eq_zero_iff (n := 8192) (by decide) reaches).mpr
    refine ⟨by decide, ?_, ?_⟩
    · obtain ⟨f, file⟩ := List.exists_mem_of_ne_nil files inhabited
      exact ⟨_, List.mem_map_of_mem file,
        CheckLine.isBlank_of_parse (parse_digestOf (writable f file) (unmodified f file))⟩
    · rw [List.forall_mem_map]
      intro f file _
      exact ⟨_, parse_digestOf (writable f file) (unmodified f file),
        ⟨f.2, FileTree.openRaw_toText_ofText (unmodified f file), rfl⟩,
        (writable f file).printable⟩
  have claimed := claims_map fun f file => parse_digestOf (a := a) (writable f file)
    (unmodified f file)
  refine ⟨zero, ?_⟩
  rw [out_of_status_eq_zero (.inl reads_defaultSize) reaches zero, claimed, List.flatMap_map]

/-- A claim of a line that was read is about a name without line breaks. -/
theorem unbroken_of_mem_claims {text : Text} {c : CheckLine}
    (claimed : c ∈ claims (Text.lines text)) : c.name.Unbroken := by
  obtain ⟨line, member, parsed⟩ := mem_claims.mp claimed
  obtain ⟨digits, ends, written, -⟩ := CheckLine.exists_written_of_parse parsed
  intro s inside
  apply Text.unbroken_of_mem_lines member
  rw [written.whole]
  simp [inside]

/-- What is printed about names without line breaks is not what is printed about other names. -/
theorem unbroken_of_printed_eq {α β : Type} {g : α → Text} {h : β → Text} {xs : List α}
    {ys : List β}
    (same : (xs.flatMap fun x => g x ++ Text.ofString ": OK" ++ [.char '\n']) =
      ys.flatMap fun y => h y ++ Text.ofString ": OK" ++ [.char '\n'])
    (unbroken : ∀ x ∈ xs, (g x).Unbroken) (noFeed : ∀ y ∈ ys, .char '\n' ∉ h y) :
    ∀ y ∈ ys, (h y).Unbroken := by
  intro y member s inside
  have printed : s ∈ ys.flatMap fun y => h y ++ Text.ofString ": OK" ++ [.char '\n'] :=
    List.mem_flatMap.mpr ⟨y, member, by simp [inside]⟩
  rw [← same] at printed
  obtain ⟨x, here, shown⟩ := List.mem_flatMap.mp printed
  obtain line | feed := List.mem_append.mp shown
  · obtain name | verdict := List.mem_append.mp line
    · exact unbroken x here s name
    · exact Text.unbroken_verdict Text.unbroken_nil s verdict
  · rw [List.mem_singleton.mp feed] at inside
    exact absurd inside (noFeed y member)

/-- The names in the claims of lines that all make one. -/
theorem map_name_claims {α : Type} {g name : α → Text} {xs : List α}
    (parsed : ∀ x ∈ xs, ∃ c, CheckLine.parse (g x) = .ok c ∧ c.name = name x) :
    (claims (xs.map g)).map (·.name) = xs.map name := by
  have : Nonempty CheckLine := ⟨⟨0, []⟩⟩
  choose! claim reads named using parsed
  rw [claims_map reads, List.map_map]
  exact List.map_congr_left named

/-- If a listing verifies, file by file, then each name was shown as it is and holds no line break:
what is printed about a line that was read holds none, and a name that was shown otherwise is
shorter there. -/
theorem shown_of_verifies (writable : ∀ f ∈ files, Writable f.1)
    (reaches : Reaches around stdin args a defaultSize
      (Text.lines (listingText a (files.map shown))) s)
    (fresh : s.out.bytes = [])
    (zero : ((Program.tool .checksum).run around stdin args).status = 0)
    (out : ((Program.tool .checksum).run around stdin args).out =
      files.flatMap fun f => (f.1 ++ Text.ofString ": OK" ++ "\n" : Text).encode) :
    ∀ f ∈ files, f.1.Unbroken ∧ f.1.unstyled = f.1 := by
  obtain ⟨-, -, all⟩ := (status_eq_zero_iff (n := 8192) (by decide) reaches).mp zero
  have printed := out_of_status_eq_zero (.inl reads_defaultSize) reaches zero
  simp only [fresh, List.nil_append, out, lineBytes_verdict, Text.flatMap_encode_lines] at printed
  -- Both sides are the bytes of texts without stray bytes, so they are the same text.
  have texts := Text.eq_of_encode_eq
    (Text.printable_lines fun f file => Text.printable_verdict (writable f file).printable)
    (Text.printable_lines fun c claimed => Text.printable_verdict
      (Text.printable_unstyled.mpr (forall_mem_claims all c claimed).2)) printed
  have unbroken_of_claimed (c : CheckLine)
      (claimed : c ∈ claims (Text.lines (listingText a (files.map shown)))) :=
    Text.unbroken_unstyled (unbroken_of_mem_claims claimed)
  have unbroken : ∀ f ∈ files, f.1.Unbroken := unbroken_of_printed_eq texts.symm
    unbroken_of_claimed fun f file => (writable f file).no_feed
  have unbroken' : ∀ f ∈ files.map shown, f.1.Unbroken :=
    List.forall_mem_map.mpr fun f file => Text.unbroken_unstyled (unbroken f file)
  rw [lines_listing unbroken'] at texts all unbroken_of_claimed
  have names : (claims ((files.map shown).map fun f => (digestOf a f).line)).map (·.name) =
      (files.map shown).map (·.1) := by
    apply map_name_claims
    intro f file
    obtain ⟨c, parsed, -⟩ := all _ (List.mem_map_of_mem file)
      (CheckLine.isBlank_line (a.checksum_lt f.2))
    exact ⟨c, parsed, name_of_parse_digestOf (unbroken' f file) parsed⟩
  have cut := congrArg Text.lines texts
  rw [Text.lines_flatMap fun f file => Text.unbroken_verdict (unbroken f file),
    Text.lines_flatMap fun c claimed =>
      Text.unbroken_verdict (unbroken_of_claimed c claimed)] at cut
  have verdicts (cs : List CheckLine) : cs.map (fun c => c.name.unstyled ++ Text.ofString ": OK") =
      (cs.map (·.name)).map fun name => name.unstyled ++ Text.ofString ": OK" := by
    rw [List.map_map]
    rfl
  rw [verdicts, names, List.map_map, List.map_map, List.map_inj_left] at cut
  intro f file
  have same : f.1 = f.1.unstyled.unstyled := List.append_cancel_right (cut f file)
  refine ⟨unbroken f file, Text.unstyled_eq_self ?_⟩
  conv_lhs => rw [same]
  exact Text.length_unstyled_le _

/-- What is written for files is the listing of them as they are shown. -/
theorem run_digests (untouched : around.Untouched) (inhabited : files ≠ [])
    (listable : ∀ f ∈ files, Listable f.1)
    (readable : ∀ f ∈ files, around.tree.openRaw f.1 = .ok f.2)
    (asks : AsksDigests around args a (files.map (·.1))) (stdin : Stream) :
    ((Program.tool .checksum).run around stdin args).status = 0 ∧
      ((Program.tool .checksum).run around stdin args).out =
        files.flatMap fun f => lineBytes (digestOf a f).line := by
  have writes : Writes ((Program.tool .checksum).launch around args) (.ok ()) _ :=
    writes_launch_digests untouched asks inhabited (fun f file => (listable f file).not_input)
      (fun f file => (listable f file).printable) readable
  obtain ⟨out, ending⟩ := Program.run_of_writes
    (Eq.refl (((Program.tool .checksum).launch around args).run.run (around.session stdin))) writes
  refine ⟨?_, out⟩
  rw [Outcome.status, ending]
  rfl

theorem flatMap_lineBytes_digestOf (a : Algorithm) (files : List (Text × Bytes)) :
    files.flatMap (fun f => lineBytes (digestOf a f).line) =
      (listingText a (files.map shown)).encode := by
  rw [listingText, List.flatMap_map, ← Text.flatMap_encode_lines]
  simp only [lineBytes_digestOf]

/-- The verification of a listing gets to its lines. -/
theorem exists_reaches_listing (untouched : around.Untouched)
    (writable : ∀ f ∈ files, Writable f.1) {listing : Text}
    (asks : AsksVerification around args a listing)
    (supplies : Supplies around stdin listing (listingText a files).encode) :
    ∃ s, Reaches around stdin args a defaultSize (Text.lines (listingText a files)) s ∧
      s.out.bytes = [] := by
  have read := decode_listing (a := a) writable
  have noReturn : .char '\r' ∉ Utf8.decode (listingText a files).encode := by
    rw [read]
    exact not_mem_listing_return writable
  obtain ⟨s, reaches, fresh⟩ := exists_reaches untouched asks supplies noReturn
  rw [read] at reaches
  exact ⟨s, reaches, fresh⟩

/-- A listing that the program writes for files, and that it verifies while the files are as they
were, verifies with one line for each file in turn if and only if no name holds a line break or a
style sequence. The names may hold any other character; that they are not empty and hold no
character which ends names follows from the files being there. -/
theorem written_listing_verifies_iff (untouched : around.Untouched)
    (untouched' : around'.Untouched) (a : Algorithm) (inhabited : files ≠ [])
    (listable : ∀ f ∈ files, Listable f.1)
    (readable : ∀ f ∈ files, around.tree.openRaw f.1 = .ok f.2)
    (unmodified : ∀ f ∈ files, around'.tree.openRaw f.1 = .ok f.2)
    {args args' : List Text} {listing : Text} (stdin stdin' : Stream)
    (asks : AsksDigests around args a (files.map (·.1)))
    (asks' : AsksVerification around' args' a listing)
    (supplies : Supplies around' stdin' listing
      ((Program.tool .checksum).run around stdin args).out) :
    let written := (Program.tool .checksum).run around stdin args
    let verified := (Program.tool .checksum).run around' stdin' args'
    written.status = 0 ∧
    written.out = (files.flatMap fun f => lineBytes
      (Digest.line ⟨a, a.checksum f.2, f.2.length, f.1⟩)) ∧
    ((verified.status = 0 ∧
        verified.out = files.flatMap fun f =>
          (f.1 ++ Text.ofString ": OK" ++ "\n" : Text).encode) ↔
      ∀ f ∈ files, f.1.Unbroken ∧ f.1.unstyled = f.1) := by
  intro written verified
  have writable : ∀ f ∈ files, Writable f.1 := fun f file => (listable f file).toWritable
  obtain ⟨status, out⟩ := run_digests untouched inhabited listable readable asks stdin
  rw [out, flatMap_lineBytes_digestOf] at supplies
  obtain ⟨s, reaches, fresh⟩ :=
    exists_reaches_listing untouched' (writable_of_shown writable) asks' supplies
  refine ⟨status, out, ?_, ?_⟩
  · rintro ⟨zero, verdicts⟩
    exact shown_of_verifies writable reaches fresh zero verdicts
  · intro plain
    have same : files.map shown = files := by
      conv_rhs => rw [← List.map_id files]
      exact List.map_congr_left fun f file => Prod.ext (plain f file).2 rfl
    rw [same] at reaches
    obtain ⟨zero, verdicts⟩ := verifies_of_unbroken inhabited writable unmodified reaches
      fun f file => (plain f file).1
    refine ⟨zero, verdicts.trans ?_⟩
    rw [fresh, List.nil_append]
    apply List.flatMap_congr
    intro f file
    rw [lineBytes_verdict, (plain f file).2]

/-- Standard input can supply a listing, unless a file that is named like it stands in the way. -/
theorem supplies_input {listing : Text} (named : (Path.ofText listing).toText = Text.ofString "-")
    (accepted : ValueForm.path.check around.tree listing = .ok ()) (data : Bytes) :
    Supplies around (.ofBytes data) listing data := by
  rw [Supplies, if_pos named]
  refine ⟨accepted, (Stream.ofBytes data).advance data.length, ?_⟩
  simp [Stream.read, Stream.ofBytes, Stream.grant]

/-- Two files, one with a blank and one with an accent in its name, listed and verified through a
pipe with the algorithm of a flag. -/
theorem written_listing_verifies_iff_piped :
    let around : Surroundings := ⟨.standard, [("a b", .file {} [0x78]), ("é", .file {} [])], []⟩
    let written := (Program.tool .checksum).run around (.ofBytes []) ["-a", "--", "a b", "é"]
    let verified := (Program.tool .checksum).run around (.ofBytes written.out) ["-av", "-"]
    written.status = 0 ∧ verified.status = 0 ∧
      verified.out = Text.encode "a b: OK\n" ++ Text.encode "é: OK\n" := by
  intro around written verified
  let files : List (Text × Bytes) := [("a b", [0x78]), ("é", [])]
  have untouched := Surroundings.untouched_nil around.packages around.tree
  have listable : ∀ f ∈ files, Listable f.1 := by
    simp only [files, List.forall_mem_cons]
    exact ⟨⟨⟨Text.printable_ofChars _, by decide, by decide⟩, by decide⟩,
      ⟨⟨Text.printable_ofChars _, by decide, by decide⟩, by decide⟩, nofun⟩
  have readable : ∀ f ∈ files, around.tree.openRaw f.1 = .ok f.2 := by
    simp only [files, List.forall_mem_cons]
    exact ⟨by cbv, by cbv, nofun⟩
  have asks : AsksDigests around ["-a", "--", "a b", "é"] .adler32 (files.map (·.1)) :=
    ⟨⟨[(.own (.algorithm .adler32), none)], ["a b", "é"]⟩, ⟨rfl, rfl, rfl, rfl⟩, rfl, rfl, rfl, rfl⟩
  have asks' : AsksVerification around ["-av", "-"] .adler32 "-" :=
    ⟨⟨[(.own (.algorithm .adler32), none), (.own .verify, some "-")], []⟩, ⟨rfl, rfl, rfl, rfl⟩,
      rfl, rfl⟩
  have supplies : Supplies around (.ofBytes written.out) "-" written.out :=
    supplies_input (by decide) (by cbv) written.out
  obtain ⟨status, -, verifies⟩ := written_listing_verifies_iff untouched untouched .adler32
    (List.cons_ne_nil _ _) listable readable readable _ _ asks asks' supplies
  obtain ⟨status', out⟩ := verifies.mpr (by unfold Text.Unbroken; decide)
  exact ⟨status, status', out⟩

/-- A file whose name holds a line separator: the listing is written, and does not verify. -/
theorem broken_name_does_not_verify :
    let around : Surroundings := ⟨.standard, [("a\u2028b", .file {} [0x78])], []⟩
    let written := (Program.tool .checksum).run around (.ofBytes []) ["a\u2028b"]
    let verified := (Program.tool .checksum).run around (.ofBytes written.out) ["-v", "-"]
    Listable "a\u2028b" ∧ around.tree.openRaw "a\u2028b" = .ok [0x78] ∧ written.status = 0 ∧
      ¬ (verified.status = 0 ∧ verified.out = Text.encode "a\u2028b: OK\n") := by
  intro around written verified
  let files : List (Text × Bytes) := [("a\u2028b", [0x78])]
  have untouched := Surroundings.untouched_nil around.packages around.tree
  have named : Listable "a\u2028b" :=
    ⟨⟨Text.printable_ofChars _, by decide, by decide⟩, by decide⟩
  have writable : ∀ f ∈ files, Writable f.1 := List.forall_mem_singleton.mpr named.toWritable
  have opened : around.tree.openRaw "a\u2028b" = .ok [0x78] := by cbv
  have asks : AsksDigests around ["a\u2028b"] .crc32 (files.map (·.1)) :=
    ⟨⟨[], ["a\u2028b"]⟩, ⟨rfl, rfl, rfl, rfl⟩, rfl, rfl, rfl, rfl⟩
  have asks' : AsksVerification around ["-v", "-"] .crc32 "-" :=
    ⟨⟨[(.own .verify, some "-")], []⟩, ⟨rfl, rfl, rfl, rfl⟩, rfl, rfl⟩
  obtain ⟨status, out⟩ := run_digests untouched (List.cons_ne_nil _ _)
    (List.forall_mem_singleton.mpr named) (List.forall_mem_singleton.mpr opened) asks (.ofBytes [])
  rw [flatMap_lineBytes_digestOf] at out
  have supplies : Supplies around (.ofBytes written.out) "-"
      (listingText .crc32 (files.map shown)).encode := by
    rw [← out]
    exact supplies_input (by decide) (by cbv) _
  obtain ⟨s, reaches, fresh⟩ :=
    exists_reaches_listing untouched (writable_of_shown writable) asks' supplies
  refine ⟨named, opened, status, ?_⟩
  rintro ⟨zero, verdicts⟩
  have plain := shown_of_verifies writable reaches fresh zero verdicts
  exact absurd ((plain _ List.mem_cons_self).1 (.char '\u2028') (by decide)) (by decide)

end ChecksumProgram

end Bytewise
