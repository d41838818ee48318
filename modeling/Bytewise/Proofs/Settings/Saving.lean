import Bytewise.Proofs.FileTree.Writing
import Bytewise.Proofs.Json.ReadBack
import Bytewise.Proofs.Settings.Resolution
import Bytewise.Proofs.Yaml.Groups

/-!
# Settings saved and loaded

The mapping that settings are written as holds every setting under its section and key, so it gives
the settings back (`Settings.ofMap_entries`). Whether settings survive being saved is therefore a
matter of the format alone: if the document that is written has no carriage returns and is read as
the mapping, then the file that it is saved to gives the settings back (`Settings.save_ofFile`).

In JSON this holds of every value that JSON has (`Settings.save_json`). A package for YAML that
keeps groups keeps settings that hold what they are declared to hold (`Settings.save_yaml`). In both
a number must not be too long to be converted to its digits (`Settings.save_yaml_tooLong`).
-/

namespace Bytewise

theorem Section.nodup_headings : (Section.all.map Section.heading).Nodup := by
  simp [Section.all, Section.heading, Text.ofString, Text.ofChars]

theorem Section.nodup_keys (sec : Section) : (sec.fields.map Field.key).Nodup := by
  cases sec <;> simp [Section.fields, Field.key, Text.ofString, Text.ofChars]

theorem Section.printable_heading (sec : Section) : sec.heading.Printable := by
  cases sec <;> exact Text.printable_ofChars _

theorem Field.printable_key (f : Field) : f.key.Printable := by
  cases f <;> exact Text.printable_ofChars _

theorem Field.isJson_default (f : Field) : f.default.IsJson := by
  cases f with
  | ignorePatterns => exact .list (by simp)
  | skipHidden | useMmap | suppressDuplicates => exact .bool true
  | headerSniffBytes | chunkSize | bufferSize | bytesPerLine =>
      exact .int (Numeral.isShort_iff.mpr (by decide))
  | algorithm | logLevel | logFormat => exact .text (Text.printable_ofChars _)

def Settings.names : List Text := Section.all.flatMap fun sec =>
  sec.heading :: sec.fields.map Field.key

theorem Settings.areKeys_names : Yaml.AreKeys names := by
  intro name member
  have word : ∀ name ∈ names, name = Text.ofChars (name.filterMap Symbol.char?) ∧
      Yaml.IsKey (name.filterMap Symbol.char?) := by decide
  exact ⟨_, (word name member).2, (word name member).1⟩

theorem Section.heading_mem_names (sec : Section) : sec.heading ∈ Settings.names := by
  cases sec <;> decide

theorem Section.key_mem_names {sec : Section} {f : Field} (inside : f ∈ sec.fields) :
    f.key ∈ Settings.names := by
  refine List.mem_flatMap.mpr ⟨sec, by cases sec <;> decide, ?_⟩
  exact List.mem_cons_of_mem _ (List.mem_map_of_mem inside)

/-- The values that a setting is declared to hold; texts are well-formed. -/
def Field.Declares : Field → Value → Prop
  | .ignorePatterns, v =>
    ∃ texts : List Text, (∀ t ∈ texts, t.Printable) ∧ v = .list (texts.map .text)
  | .skipHidden, v | .useMmap, v | .suppressDuplicates, v => ∃ b, v = .bool b
  | .headerSniffBytes, v | .chunkSize, v | .bufferSize, v | .bytesPerLine, v => ∃ n, v = .int n
  | .algorithm, v | .logLevel, v | .logFormat, v => ∃ t : Text, t.Printable ∧ v = .text t

theorem Field.declares_default (f : Field) : f.Declares f.default := by
  cases f with
  | ignorePatterns => exact ⟨[], by simp, rfl⟩
  | skipHidden | useMmap | suppressDuplicates => exact ⟨true, rfl⟩
  | headerSniffBytes | chunkSize | bufferSize | bytesPerLine => exact ⟨_, rfl⟩
  | algorithm | logLevel | logFormat => exact ⟨_, Text.printable_ofChars _, rfl⟩

theorem Field.isShort_default (f : Field) (n : Int) (number : f.default = .int n) :
    Numeral.isShort n = true := by
  cases f with
  | headerSniffBytes | chunkSize | bufferSize | bytesPerLine =>
      cases number
      exact Numeral.isShort_iff.mpr (by decide)
  | _ => cases number

theorem Field.Declares.isMember {f : Field} {v : Value} (declares : f.Declares v)
    (short : ∀ n, v = .int n → Numeral.isShort n = true) : IsMember v := by
  cases f with
  | ignorePatterns =>
      obtain ⟨texts, printable, rfl⟩ := declares
      exact .texts printable
  | skipHidden | useMmap | suppressDuplicates =>
      obtain ⟨b, rfl⟩ := declares
      exact .bool b
  | headerSniffBytes | chunkSize | bufferSize | bytesPerLine =>
      obtain ⟨n, rfl⟩ := declares
      exact .int (short n rfl)
  | algorithm | logLevel | logFormat =>
      obtain ⟨t, printable, rfl⟩ := declares
      exact .text printable

namespace Settings

variable {yaml : YamlPackage} {s : Settings} {t : FileTree} {p : Path} {format : Format}
  {cs : List Char}

def entries (s : Settings) : List (Value × Value) :=
  Section.all.map fun sec => (.text sec.heading, s.sectionValue sec)

theorem toValue_eq (s : Settings) : s.toValue = .map s.entries := rfl

theorem distinct_entries (s : Settings) : (s.entries.map Prod.fst).Nodup := by
  have nodup := Section.nodup_headings.map (f := Value.text) fun _ _ => Value.text.inj
  rw [List.map_map] at nodup
  rw [entries, List.map_map]
  exact nodup

theorem distinct_fields (s : Settings) (sec : Section) :
    ((sec.fields.map fun f => (Value.text f.key, s.get f)).map Prod.fst).Nodup := by
  have nodup := sec.nodup_keys.map (f := Value.text) fun _ _ => Value.text.inj
  rw [List.map_map] at nodup ⊢
  exact nodup

theorem lookup_entries (s : Settings) (sec : Section) :
    Value.lookup (.text sec.heading) s.entries = some (s.sectionValue sec) := by
  cases sec <;> rfl

theorem given?_entries (s : Settings) (f : Field) : given? s.entries f = some (s.get f) := by
  rw [given?, lookup_entries]
  cases f <;> rfl

theorem accepted_entries (s : Settings) : Accepted s.entries := by
  intro sec v found
  cases (lookup_entries s sec).symm.trans found
  refine .inr ⟨_, rfl, fun e member => ?_⟩
  obtain ⟨f, inside, rfl⟩ := List.mem_map.mp member
  exact ⟨f, inside, rfl⟩

/-- The mapping that settings are written as gives the settings back. -/
theorem ofMap_entries (s : Settings) : ofMap s.entries = .ok s := by
  rw [ofMap_of_accepted (accepted_entries s)]
  simp only [given?_entries, Option.getD_some]

/-- A document without carriage returns that is read as the mapping of the settings gives them back
from the file that it is saved to. -/
theorem save_ofFile (named : formatOf p.suffix = .ok format)
    (written : s.write yaml format = .ok cs) (noReturn : '\r' ∉ cs)
    (document : readDocument yaml format cs = .ok s.toValue) (keeps : t.Keeps p) :
    ∃ t', s.save yaml p t = .ok t' ∧ t'.readText p.toText = .ok cs ∧
      ofFile yaml t' p = .ok s := by
  obtain ⟨t', saved, present, opened⟩ := keeps.writeFile (Text.ofChars cs).encode
  have text := FileTree.readText_of_openRaw opened noReturn
  refine ⟨t', ?_, text, ?_⟩
  · simp [save, named, written, saved, bind, Except.bind]
  · exact (ofFile_of_document present text named document).trans (ofMap_entries s)

/-- What holds of every setting also does after one is set, if it holds of the new value. -/
theorem forall_get_set {P : Field → Value → Prop} {g : Field} {v : Value}
    (values : ∀ f, P f (s.get f)) (new : P g v) (f : Field) : P f ((s.set g v).get f) := by
  by_cases same : f = g
  · subst same
    rwa [get_set_self]
  · rw [get_set_of_ne s v same]
    exact values f

/-! ## JSON -/

theorem isJson_sectionValue (values : ∀ f, (s.get f).IsJson) (sec : Section) :
    (s.sectionValue sec).IsJson := by
  refine .map ?_ ?_ ?_
  · intro e member
    obtain ⟨f, _, rfl⟩ := List.mem_map.mp member
    exact ⟨f.key, f.printable_key, rfl⟩
  · exact distinct_fields s sec
  · intro e member
    obtain ⟨f, _, rfl⟩ := List.mem_map.mp member
    exact values f

theorem isJson_toValue (values : ∀ f, (s.get f).IsJson) : s.toValue.IsJson := by
  refine .map ?_ ?_ ?_
  · intro e member
    obtain ⟨sec, _, rfl⟩ := List.mem_map.mp member
    exact ⟨sec.heading, sec.printable_heading, rfl⟩
  · exact distinct_entries s
  · intro e member
    obtain ⟨sec, _, rfl⟩ := List.mem_map.mp member
    exact isJson_sectionValue values sec

/-- Settings that hold JSON values survive being saved as JSON: the file that they are saved to
gives them back, and saving what was loaded writes the same text again, wherever it is saved. -/
theorem save_json (yaml : YamlPackage) (s : Settings) (values : ∀ f, (s.get f).IsJson) (p : Path)
    (named : p.suffix = Text.ofString ".json") (t : FileTree) (keeps : t.Keeps p) :
    ∃ t' cs s', s.save yaml p t = .ok t' ∧ t'.readText p.toText = .ok cs ∧
      ofFile yaml t' p = .ok s' ∧ s'.toValue = s.toValue ∧
      ∀ q : Path, q.suffix = Text.ofString ".json" → ∀ t₁ : FileTree, t₁.Keeps q →
        ∃ t₂, s'.save yaml q t₁ = .ok t₂ ∧ t₂.readText q.toText = .ok cs := by
  have isJson := isJson_toValue values
  have json {q : Path} (named : q.suffix = Text.ofString ".json") :
      formatOf q.suffix = .ok .json := by
    rw [named]
    rfl
  have written : s.write yaml .json = .ok (Json.document s.toValue) := Json.write_of_isJson isJson
  have noReturn : '\r' ∉ Json.document s.toValue := Json.return_not_mem_writeAt isJson 0
  have document : readDocument yaml .json (Json.document s.toValue) = .ok s.toValue :=
    readDocument_json isJson
  obtain ⟨t', saved, text, loaded⟩ := save_ofFile (json named) written noReturn document keeps
  refine ⟨t', _, s, saved, text, loaded, rfl, fun q named t₁ keeps => ?_⟩
  obtain ⟨t₂, saved, text, _⟩ := save_ofFile (json named) written noReturn document keeps
  exact ⟨t₂, saved, text⟩

/-- A text with a line break and characters that only escapes can show, nested values, and a
directory that has to be made. -/
theorem save_json_nested :
    let s := (Settings.default.set .logFormat "a\r\n\"\\\u00e9").set .ignorePatterns
      (.list [.map [("k", .null)], .list []])
    ∃ t' cs s', s.save .standard (Path.ofText "d/c.json") [] = .ok t' ∧
      t'.readText (Path.ofText "d/c.json").toText = .ok cs ∧
      ofFile .standard t' (Path.ofText "d/c.json") = .ok s' ∧ s'.toValue = s.toValue := by
  intro s
  have keeps : FileTree.Keeps [] (Path.ofText "d/c.json") :=
    ⟨[("d", .directory {} [])], ["d", "c.json"], {}, [], by cbv, by cbv, rfl, rfl⟩
  have values : ∀ f, (s.get f).IsJson := by
    refine forall_get_set (forall_get_set Field.isJson_default ?_) (.list ?_)
    · exact .text (Text.printable_ofChars _)
    · have object : (Value.map [("k", .null)]).IsJson :=
        .map (List.forall_mem_singleton.mpr ⟨_, Text.printable_ofChars _, rfl⟩)
          (List.nodup_singleton _) (List.forall_mem_singleton.mpr .null)
      exact List.forall_mem_cons.mpr ⟨object, List.forall_mem_singleton.mpr (.list (by simp))⟩
  obtain ⟨t', cs, s', saved, text, loaded, same, _⟩ :=
    save_json .standard s values (Path.ofText "d/c.json") (by cbv) [] keeps
  exact ⟨t', cs, s', saved, text, loaded, same⟩

/-! ## YAML -/

/-- The entries of settings are groups under the names of settings. -/
theorem isGroup_entries (declared : ∀ f : Field, f.Declares (s.get f))
    (short : ∀ f n, s.get f = .int n → Numeral.isShort n = true) :
    AreNamed names s.entries ∧ ∀ e ∈ s.entries, IsGroup names e.2 := by
  refine ⟨⟨List.cons_ne_nil _ _, distinct_entries s, fun e member => ?_⟩, fun e member => ?_⟩
  · obtain ⟨sec, _, rfl⟩ := List.mem_map.mp member
    exact ⟨sec.heading, sec.heading_mem_names, rfl⟩
  · obtain ⟨sec, _, rfl⟩ := List.mem_map.mp member
    refine ⟨_, rfl, ⟨?_, distinct_fields s sec, fun e member => ?_⟩, fun e member => ?_⟩
    · cases sec <;> exact List.cons_ne_nil _ _
    · obtain ⟨f, inside, rfl⟩ := List.mem_map.mp member
      exact ⟨f.key, Section.key_mem_names inside, rfl⟩
    · obtain ⟨f, _, rfl⟩ := List.mem_map.mp member
      exact (declared f).isMember (short f)

/-- Settings that hold what they are declared to hold survive being saved as YAML, whatever their
texts would be taken for without quotes, unless a number is too long to be written. -/
theorem save_yaml (yaml : YamlPackage) (kept : yaml.KeepsGroups names) (s : Settings)
    (declared : ∀ f : Field, f.Declares (s.get f))
    (short : ∀ f n, s.get f = .int n → Numeral.isShort n = true) (p : Path)
    (named : p.suffix = Text.ofString ".yaml" ∨ p.suffix = Text.ofString ".yml") (t : FileTree)
    (keeps : t.Keeps p) :
    ∃ t' s', s.save yaml p t = .ok t' ∧ ofFile yaml t' p = .ok s' ∧ s'.toValue = s.toValue := by
  have inYaml : formatOf p.suffix = .ok .yaml := by
    obtain suffix | suffix := named <;> rw [suffix] <;> rfl
  obtain ⟨areNamed, groups⟩ := isGroup_entries declared short
  obtain ⟨cs, written, noReturn, read⟩ := kept s.entries areNamed groups
  have document : readDocument yaml .yaml cs = .ok s.toValue := by
    rw [readDocument, toValue_eq, read]
    rfl
  obtain ⟨t', saved, _, loaded⟩ := save_ofFile inYaml written noReturn document keeps
  exact ⟨t', s, saved, loaded, rfl⟩

/-- Texts that are empty or would be taken for nothing, a number, a truth value, a comment or an
item, and texts with quotes, line breaks and characters that only escapes can show. -/
theorem save_yaml_markup :
    let s := (Settings.default.set .logFormat "a\r\n\"\\\u00e9").set .ignorePatterns
      (.list ((["", "null", "12", "yes", "# x", "- x", "it's: x", " x\n\ny "].map
        Text.ofString).map .text))
    ∃ t' s', s.save .standard (Path.ofText "d/c.yml") [] = .ok t' ∧
      ofFile .standard t' (Path.ofText "d/c.yml") = .ok s' ∧ s'.toValue = s.toValue := by
  intro s
  have keeps : FileTree.Keeps [] (Path.ofText "d/c.yml") :=
    ⟨[("d", .directory {} [])], ["d", "c.yml"], {}, [], by cbv, by cbv, rfl, rfl⟩
  have declared : ∀ f : Field, f.Declares (s.get f) := by
    refine forall_get_set (forall_get_set Field.declares_default ?_) ⟨_, fun t member => ?_, rfl⟩
    · exact ⟨_, Text.printable_ofChars _, rfl⟩
    · obtain ⟨word, _, rfl⟩ := List.mem_map.mp member
      exact Text.printable_ofChars _
  have short : ∀ f n, s.get f = .int n → Numeral.isShort n = true := by
    let P (_ : Field) (v : Value) : Prop := ∀ n, v = .int n → Numeral.isShort n = true
    have texts : P .logFormat (.text "a\r\n\"\\\u00e9") := fun _ number => by cases number
    refine @forall_get_set _ P _ _ (@forall_get_set _ P _ _ Field.isShort_default texts) ?_
    intro n number
    cases number
  exact save_yaml .standard (YamlPackage.standard_keepsGroups areKeys_names) s declared short
    (Path.ofText "d/c.yml") (.inr (by cbv)) [] keeps

/-- Nothing is saved if a number is too long to be written. -/
theorem save_yaml_of_long {n : Int} (long : Numeral.isShort n = false)
    (named : p.suffix = Text.ofString ".yaml") (t : FileTree) :
    (Settings.default.set .chunkSize (.int n)).save .standard p t = .error .integerTooLong := by
  have sniff : Numeral.isShort 4096 = true := Numeral.isShort_iff.mpr (by decide)
  have fault : (Settings.default.set .chunkSize (.int n)).toValue.firstFault? Yaml.fault? =
      some .integerTooLong := by
    simp [toValue, Section.all, sectionValue, Section.fields, Value.firstFault?,
      Value.firstEntryFault?, Value.firstItemFault?, set, Settings.default, Field.default,
      Yaml.fault?, sniff, long]
  have inYaml : formatOf p.suffix = .ok .yaml := by
    rw [named]
    rfl
  simp [save, inYaml, write, YamlPackage.standard, Yaml.write, fault, bind, Except.bind]

/-- One followed by as many zeros as a number may have digits is a number that a setting is declared
to hold, but it cannot be saved. -/
theorem save_yaml_tooLong :
    let s := Settings.default.set .chunkSize (.int (Numeral.powerOfTen Numeral.digitLimit))
    (∀ f : Field, f.Declares (s.get f)) ∧
      (Path.ofText "c.yaml").suffix = Text.ofString ".yaml" ∧
      FileTree.Keeps [] (Path.ofText "c.yaml") ∧
      s.save .standard (Path.ofText "c.yaml") [] = .error .integerTooLong := by
  intro s
  have suffix : (Path.ofText "c.yaml").suffix = Text.ofString ".yaml" := by cbv
  have long : Numeral.isShort (Numeral.powerOfTen Numeral.digitLimit) = false := by
    refine decide_eq_false ?_
    rw [Int.natAbs_natCast]
    exact Nat.lt_irrefl _
  refine ⟨forall_get_set Field.declares_default ⟨_, rfl⟩, suffix, ?_, ?_⟩
  · exact ⟨[], ["c.yaml"], {}, [], by cbv, by cbv, rfl, rfl⟩
  · exact save_yaml_of_long long suffix []

end Settings

end Bytewise
