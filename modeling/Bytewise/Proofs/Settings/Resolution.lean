import Bytewise.Package.Standard
import Bytewise.Proofs.FileTree.Writing
import Bytewise.Proofs.Json.ReadBack
import Bytewise.Proofs.Settings.Mapping
import Bytewise.Proofs.Settings.Overrides

/-!
# Where a setting comes from

Settings are loaded from three layers: the environment, a file and the defaults. The layers are put
together setting by setting, so the file is described by the mapping that is read from it and a
setting by the first layer that has a value for it (`Settings.load_resolves`).
-/

namespace Bytewise.Settings

/-- The mapping that settings are loaded from: the one that a file holds, and the empty one if no
file is named. -/
inductive Reads (yaml : YamlPackage) (t : FileTree) :
    Option Text → List (Value × Value) → Prop where
  | nothing : Reads yaml t none []
  | file {name : Text} {cs : List Char} {format : Format} {entries : List (Value × Value)}
      (present : t.isPresent (Path.ofText name).toText = .ok true)
      (text : t.readText (Path.ofText name).toText = .ok cs)
      (named : formatOf (Path.ofText name).suffix = .ok format)
      (document : readDocument yaml format cs = .ok (.map entries)) :
      Reads yaml t (some name) entries

variable {yaml : YamlPackage} {t : FileTree} {env : Environment} {given : Option Text}
  {useEnvironment : Bool}
  {path : Path} {cs : List Char} {format : Format} {entries : List (Value × Value)}

/-- A file that holds a mapping gives the settings of the mapping. -/
theorem ofFile_of_document (present : t.isPresent path.toText = .ok true)
    (text : t.readText path.toText = .ok cs) (named : formatOf path.suffix = .ok format)
    (document : readDocument yaml format cs = .ok (.map entries)) :
    ofFile yaml t path = ofMap entries := by
  simp only [ofFile, present, text, named, document, bind, Except.bind, Bool.not_true,
    Bool.false_eq_true, ↓reduceIte]

theorem readDocument_json (isJson : (Value.map entries).IsJson) :
    readDocument yaml .json (Json.document (.map entries)) = .ok (.map entries) := by
  simp [readDocument, Json.not_blank_document_map, Json.read_document isJson]

/-- The settings before the environment is applied. -/
theorem load_eq_of_reads (reads : Reads yaml t (fileName env given useEnvironment) entries)
    (accepted : Accepted entries) :
    load yaml t env given useEnvironment =
      let s : Settings := ⟨fun f => (given? entries f).getD f.default⟩
      if useEnvironment then
        match s.override env with
        | (s, none) => .ok s
        | (_, some fault) => .error fault
      else .ok s := by
  rw [load]
  generalize fileName env given useEnvironment = name at reads
  cases reads with
  | nothing => rfl
  | file present text named document =>
      simp only [ofFile_of_document present text named document, ofMap_of_accepted accepted]
      rfl

/-- Without the environment no file is taken from it either. -/
theorem load_without_environment (yaml : YamlPackage) (t : FileTree) (env env' : Environment)
    (given : Option Text) : load yaml t env given false = load yaml t env' given false := by
  have name : fileName env given false = fileName env' given false := by
    cases given <;> rfl
  rw [load, load, name]
  rfl

/-- Settings come from three layers, field by field. A mapping of sections is taken exactly if
every section in it is empty or a mapping with keys of its own, and nothing else in it matters.
Settings loaded with it have the value of their variable, where there is one and it is set, else the
value that the mapping gives them, else the default; without the environment the first layer is
left out. Two settings have no variable, and applying the environment again changes nothing. -/
theorem load_resolves (entries : List (Value × Value)) (env : Environment) :
    ((∃ s, ofMap entries = .ok s) ↔
      ∀ (sec : Section) v, Value.lookup (.text sec.heading) entries = some v →
        v.truthy = false ∨
          ∃ values, v = .map values ∧ ∀ e ∈ values, ∃ f ∈ sec.fields, e.1 = .text f.key) ∧
    (∀ entries', (∀ sec : Section, Value.lookup (.text sec.heading) entries' =
      Value.lookup (.text sec.heading) entries) → ofMap entries' = ofMap entries) ∧
    (∀ yaml t given useEnvironment, Reads yaml t (fileName env given useEnvironment) entries →
      Accepted entries → (useEnvironment = true → env.Valid) →
      ∃ s, load yaml t env given useEnvironment = .ok s ∧
        ∀ f, s.get f = (if useEnvironment then env.value? f else none).getD
          ((given? entries f).getD f.default)) ∧
    (∀ s : Settings, (s.override env).1.get .ignorePatterns = s.get .ignorePatterns ∧
      (s.override env).1.get .logFormat = s.get .logFormat) ∧
    (∀ yaml t given env', load yaml t env given false = load yaml t env' given false) ∧
    (∀ s : Settings, (s.override env).1.override env = s.override env) := by
  refine ⟨exists_ofMap_iff, fun entries' => ofMap_congr, ?_, ?_,
    fun yaml t given env' => load_without_environment yaml t env env' given, override_again env⟩
  · intro yaml t given useEnvironment reads accepted valid
    rw [load_eq_of_reads reads accepted]
    cases useEnvironment with
    | false => exact ⟨_, rfl, fun f => rfl⟩
    | true =>
        simp only [override_of_valid (valid rfl)]
        exact ⟨_, rfl, fun f => rfl⟩
  · intro s
    exact ⟨get_overrideFrom_of_not_mem (by decide) s, get_overrideFrom_of_not_mem (by decide) s⟩

/-- A file that sets two settings and holds a section of another program, and an environment that
overrides one of them. -/
theorem load_resolves_threeLayers :
    let entries : List (Value × Value) :=
      [("checksum", .map [("algorithm", "bsd"), ("chunk_size", .int 1)]), ("other", .int 2)]
    let t : FileTree := [("c.json", .file {} (Text.ofChars (Json.document (.map entries))).encode)]
    let env : Environment := [("DEVUTILS_CHECKSUM_CHUNK_SIZE", " 1_0 ")]
    ∃ s, load .standard t env (some "c.json") true = .ok s ∧ s.get .algorithm = "bsd" ∧
      s.get .chunkSize = .int 10 ∧ s.get .bufferSize = .int 16384 := by
  intro entries t env
  have both {P : Value × Value → Prop} {e e' : Value × Value} (first : P e) (second : P e') :
      ∀ x ∈ [e, e'], P x := List.forall_mem_cons.mpr ⟨first, List.forall_mem_singleton.mpr second⟩
  have isJson : (Value.map entries).IsJson := by
    have values : (Value.map [("algorithm", "bsd"), ("chunk_size", .int 1)]).IsJson := by
      refine .map (both ?_ ?_) (by simp [Text.ofString, Text.ofChars]) (both ?_ ?_)
      · exact ⟨_, Text.printable_ofChars _, rfl⟩
      · exact ⟨_, Text.printable_ofChars _, rfl⟩
      · exact .text (Text.printable_ofChars _)
      · exact .int (Numeral.isShort_iff.mpr (by decide))
    refine .map (both ?_ ?_) (by simp [entries, Text.ofString, Text.ofChars]) (both values ?_)
    · exact ⟨_, Text.printable_ofChars _, rfl⟩
    · exact ⟨_, Text.printable_ofChars _, rfl⟩
    · exact .int (Numeral.isShort_iff.mpr (by decide))
  have opened (data : Bytes) :
      FileTree.openRaw [("c.json", .file {} data)] (Path.ofText "c.json").toText = .ok data := by
    cbv
  have present (data : Bytes) :
      FileTree.isPresent [("c.json", .file {} data)] (Path.ofText "c.json").toText = .ok true := by
    cbv
  have reads : Reads .standard t (fileName env (some "c.json") true) entries :=
    .file (present _)
      (FileTree.readText_of_openRaw (opened _) (Json.return_not_mem_writeAt isJson 0))
      (by cbv) (readDocument_json isJson)
  have accepted : Accepted entries := by
    intro sec v found
    cases sec with
    | checksum =>
        cases found
        exact .inr ⟨_, rfl, both ⟨.algorithm, by decide, rfl⟩ ⟨.chunkSize, by decide, rfl⟩⟩
    | _ => cases found
  have valid : env.Valid := by
    intro o _ whole text isSet
    obtain rfl : text = Text.ofString " 1_0 " := by
      rw [List.lookup_cons] at isSet
      split at isSet <;> cases isSet
      rfl
    rw [whole]
    exact ⟨.int 10, by cbv⟩
  obtain ⟨s, loaded, values⟩ :=
    (load_resolves entries env).2.2.1 .standard t (some "c.json") true reads accepted fun _ => valid
  refine ⟨s, loaded, ?_, ?_, ?_⟩
  · rw [values]
    rfl
  · rw [values]
    cbv
  · rw [values]
    rfl

end Bytewise.Settings
