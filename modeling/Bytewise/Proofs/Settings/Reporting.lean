import Bytewise.Command.Program
import Bytewise.Proofs.Settings.Refused
import Bytewise.Proofs.Settings.Resolution

/-!
# Which invalid settings are reported

Loading settings is meant to fail only by faults that name what is wrong with the file or the
environment, which a program then reports (`Run.isSettingsFault`). There are two ways around that.
A part of the document may be in the format and still have no value, such as a numeral that is too
long. And a section may hold something that the check of its keys is not made for
(`Section.Misfits`): then the check itself fails, unless an earlier section was refused before.

`Settings.Unreported` puts the two together, and describes by the text of the file alone when
loading it fails without a report (`Settings.reported_iff`). The environment has no part in it.
-/

namespace Bytewise

/-- What may stand under the heading of a section and makes the check of its keys fail: something
that cannot be gone through, an item that is no text, or nothing but keys of the section in
something that is no mapping. -/
inductive Section.Misfits (sec : Section) (v : Value) : Prop where
  | single (truthy : v.truthy = true) (single : v.items? = none) : Misfits sec v
  | item {items : List Value} {x : Value} (gone : v.items? = some items) (member : x ∈ items)
      (odd : ∀ t, x ≠ .text t) : Misfits sec v
  | keys {items : List Value} (gone : v.items? = some items) (given : items ≠ [])
      (unpaired : ∀ values, v ≠ .map values)
      (known : ∀ x ∈ items, ∃ f ∈ sec.fields, x = .text f.key) : Misfits sec v

/-- What can be gone through is empty exactly if it counts as nothing. -/
theorem Value.truthy_iff_of_items? {v : Value} {items : List Value} (gone : v.items? = some items) :
    v.truthy = true ↔ items ≠ [] := by
  cases v <;> simp only [items?, Option.some.injEq, reduceCtorEq] at gone <;> subst gone <;>
    simp [truthy]

theorem Section.Misfits.truthy {sec : Section} {v : Value} (misfits : sec.Misfits v) :
    v.truthy = true := by
  cases misfits with
  | single truthy _ => exact truthy
  | item gone member _ => exact (v.truthy_iff_of_items? gone).mpr (List.ne_nil_of_mem member)
  | keys gone given _ _ => exact (v.truthy_iff_of_items? gone).mpr given

namespace Settings

variable {sec : Section} {v : Value} {values entries : List (Value × Value)} {s : Settings}
  {fault : Fault} {yaml : YamlPackage} {format : Format} {cs : List Char}

/-! ## The check of a section -/

theorem mapM_eq_none_iff {α β : Type} {g : α → Option β} {xs : List α} :
    xs.mapM g = none ↔ ∃ x ∈ xs, g x = none := by
  induction xs with
  | nil => simp
  | cons x xs ih =>
      rw [List.mapM_cons]
      cases first : g x with
      | none => simp [first]
      | some y =>
          cases others : xs.mapM g with
          | none => simpa [first, others] using ih.mp others
          | some ys =>
              have none : ¬ ∃ x ∈ xs, g x = .none := fun found => by
                rw [ih.mpr found] at others
                cases others
              simpa [first, others] using none

theorem exists_of_mapM_eq {α β : Type} {g : α → Option β} {xs : List α} {ys : List β}
    (mapped : xs.mapM g = some ys) : ∀ x ∈ xs, ∃ y, g x = some y := by
  intro x member
  cases result : g x with
  | some y => exact ⟨y, rfl⟩
  | none => cases (mapM_eq_none_iff.mpr ⟨x, member, result⟩).symm.trans mapped

/-- A section is refused for its keys, or because they cannot be checked. -/
theorem checkSection_eq_error (refused : checkSection sec v = .error fault) :
    fault = .wrongKind ∨ ∃ names, fault = .unknownKeys sec.heading names := by
  rw [checkSection.eq_def] at refused
  split at refused
  next => exact .inl (Except.error.inj refused).symm
  next =>
    split at refused
    next => exact .inl (Except.error.inj refused).symm
    next =>
      dsimp only at refused
      split at refused
      next => exact .inl (Except.error.inj refused).symm
      next =>
        split at refused
        next => cases refused
        next => exact .inl (Except.error.inj refused).symm
      next names _ _ => exact .inr ⟨_, (Except.error.inj refused).symm⟩

/-- Whether a key is one of a section is asked of keys of any kind, and answered yes for texts only.
-/
theorem any_sameKey_iff {key : Value} :
    (sec.fields.any fun f => key.sameKey (.text f.key)) = true ↔
      ∃ f ∈ sec.fields, key = .text f.key := by
  simp [Value.sameKey_text_iff]

/-- Unknown keys are reported where there are some, and all keys are texts. -/
theorem of_unknownKeys {heading : Text} {names : List Text}
    (refused : checkSection sec v = .error (.unknownKeys heading names)) :
    ∃ items, v.items? = some items ∧ (∀ x ∈ items, ∃ t, x = .text t) ∧
      ∃ x ∈ items, ¬ ∃ f ∈ sec.fields, x = .text f.key := by
  rw [checkSection.eq_def] at refused
  split at refused
  next => cases refused
  next items gone =>
    split at refused
    next => cases refused
    next =>
      dsimp only at refused
      split at refused
      next => cases refused
      next => split at refused <;> cases refused
      next found given named =>
        refine ⟨items, gone, ?_, ?_⟩
        · intro x member
          by_cases isKnown : (sec.fields.any fun f => x.sameKey (.text f.key)) = true
          · obtain ⟨f, _, same⟩ := any_sameKey_iff.mp isKnown
            exact ⟨f.key, same⟩
          · -- An unknown key that is no text would leave no names to report.
            obtain ⟨t, isText⟩ := exists_of_mapM_eq named x
              (List.mem_filter.mpr ⟨member, by simpa using isKnown⟩)
            cases x with
            | text t => exact ⟨t, rfl⟩
            | _ => cases isText
        · refine Classical.not_not.mp fun none => ?_
          have nothing : items.filter
              (fun key => !sec.fields.any fun f => key.sameKey (.text f.key)) = [] := by
            rw [List.filter_eq_nil_iff]
            intro x member
            have known := Classical.not_not.mp fun unknown => none ⟨x, member, unknown⟩
            simpa using any_sameKey_iff.mpr known
          rw [nothing] at named
          exact given (Option.some.inj named).symm

/-- The check fails exactly where it is not made for what it is given. -/
theorem checkSection_eq_wrongKind_iff (truthy : v.truthy = true) :
    checkSection sec v = .error .wrongKind ↔ sec.Misfits v := by
  constructor
  · intro refused
    rw [checkSection.eq_def] at refused
    split at refused
    next single => exact .single truthy single
    next items gone =>
      split at refused
      next notKeys =>
        obtain ⟨x, member, notKey⟩ : ∃ x ∈ items, x.isKey = false := by simpa using notKeys
        exact .item gone member (by rintro t rfl; cases notKey)
      next =>
        dsimp only at refused
        split at refused
        next odd =>
          obtain ⟨x, member, notText⟩ := mapM_eq_none_iff.mp odd
          refine .item gone (List.mem_filter.mp member).1 ?_
          rintro t rfl
          cases notText
        next none =>
          have known : ∀ x ∈ items, ∃ f ∈ sec.fields, x = .text f.key := by
            intro x member
            have isKnown := List.filter_eq_nil_iff.mp (eq_nil_of_mapM_eq none) x member
            exact any_sameKey_iff.mp (by simpa using isKnown)
          refine .keys gone ((v.truthy_iff_of_items? gone).mp truthy) ?_ known
          rintro values rfl
          cases refused
        next => cases refused
  · intro misfits
    cases checked : checkSection sec v with
    | ok values =>
        obtain rfl := eq_map_of_checkSection checked
        cases misfits with
        | single _ single => cases single
        | item gone member odd =>
            cases gone
            obtain ⟨e, inside, rfl⟩ := List.mem_map.mp member
            obtain ⟨f, _, same⟩ := checkSection_map_iff.mp checked _ inside
            exact absurd same (odd f.key)
        | keys _ _ unpaired _ => exact absurd rfl (unpaired values)
    | error fault =>
        obtain rfl | ⟨names, rfl⟩ := checkSection_eq_error checked
        · rfl
        · obtain ⟨items, gone, texts, x, member, unknown⟩ := of_unknownKeys checked
          cases misfits with
          | single _ single => cases gone.symm.trans single
          | item gone' inside odd =>
              cases gone.symm.trans gone'
              obtain ⟨t, same⟩ := texts _ inside
              exact absurd same (odd t)
          | keys gone' _ _ known =>
              cases gone.symm.trans gone'
              exact absurd (known x member) unknown

/-! ## All sections -/

theorem takeSection_eq_error_iff :
    takeSection entries s sec = .error fault ↔
      ∃ v, Value.lookup (.text sec.heading) entries = some v ∧ v.truthy = true ∧
        checkSection sec v = .error fault := by
  rw [takeSection]
  cases found : Value.lookup (.text sec.heading) entries with
  | none => simp
  | some v =>
      cases truthy : v.truthy with
      | false => simp [truthy]
      | true =>
          cases checked : checkSection sec v <;>
            simp [truthy, checked, bind, Except.bind, pure, Except.pure]

/-- Sections are taken over until one is refused; those before it are accepted. -/
theorem foldlM_takeSection_eq_error_iff {secs : List Section} :
    secs.foldlM (takeSection entries) s = .error fault ↔
      ∃ before sec after, secs = before ++ sec :: after ∧
        (∀ earlier ∈ before, ∀ v, Value.lookup (.text (Section.heading earlier)) entries = some v →
          earlier.Accepts v) ∧
        ∃ v, Value.lookup (.text sec.heading) entries = some v ∧ v.truthy = true ∧
          checkSection sec v = .error fault := by
  induction secs generalizing s with
  | nil => simp [pure, Except.pure]
  | cons first secs ih =>
      rw [List.foldlM_cons, exists_cut_cons_iff, ← takeSection_eq_error_iff (s := s)]
      cases step : takeSection entries s first with
      | error other =>
          refine (or_iff_left ?_).symm
          rintro ⟨accepted, -⟩
          rw [takeSection_of_accepts accepted] at step
          cases step
      | ok s' =>
          have accepted := fun v found => accepts_of_takeSection (v := v) step found
          rw [or_iff_right nofun, and_iff_right accepted]
          exact ih

/-- The first section of a mapping that is not accepted makes the check of its keys fail. -/
def Misfit (entries : List (Value × Value)) : Prop :=
  ∃ before sec after, Section.all = before ++ sec :: after ∧
    (∀ earlier ∈ before, ∀ v, Value.lookup (.text (Section.heading earlier)) entries = some v →
      earlier.Accepts v) ∧
    ∃ v, Value.lookup (.text sec.heading) entries = some v ∧ sec.Misfits v

theorem ofMap_eq_wrongKind_iff : ofMap entries = .error .wrongKind ↔ Misfit entries := by
  rw [ofMap, foldlM_takeSection_eq_error_iff, Misfit]
  constructor
  · rintro ⟨before, sec, after, split, accepted, v, found, truthy, refused⟩
    exact ⟨before, sec, after, split, accepted, v, found,
      (checkSection_eq_wrongKind_iff truthy).mp refused⟩
  · rintro ⟨before, sec, after, split, accepted, v, found, misfits⟩
    exact ⟨before, sec, after, split, accepted, v, found, misfits.truthy,
      (checkSection_eq_wrongKind_iff misfits.truthy).mpr misfits⟩

/-- A mapping is refused for the keys of a section, or without a report. -/
theorem isSettingsFault_of_ofMap (refused : ofMap entries = .error fault) :
    Run.isSettingsFault fault = false ↔ fault = .wrongKind := by
  obtain ⟨_, sec, _, _, _, v, _, _, check⟩ := foldlM_takeSection_eq_error_iff.mp refused
  obtain rfl | ⟨names, rfl⟩ := checkSection_eq_error check
  · simp [Run.isSettingsFault]
  · simp [Run.isSettingsFault]

/-! ## A file -/

/-- Loading a text in a format as settings fails without a report. -/
def Unreported (yaml : YamlPackage) (format : Format) (cs : List Char) : Prop :=
  (∃ cause, readDocument yaml format cs = .error (.refused cause)) ∨
    ∃ entries, readDocument yaml format cs = .ok (.map entries) ∧ Misfit entries

variable {t : FileTree} {path : Path} {env : Environment}

/-- A file whose text can be read is there. -/
theorem isPresent_of_readText {name : Text} (text : t.readText name = .ok cs) :
    t.isPresent name = .ok true := by
  cases found : t.find name with
  | ok node => exact FileTree.isPresent_of_find found
  | error refusal =>
      simp [FileTree.readText, FileTree.readSymbols, FileTree.openRaw, found, bind, Except.bind,
        Functor.map, Except.map] at text

/-- What a file comes to whose suffix names a format and whose text can be read. -/
theorem ofFile_eq (text : t.readText path.toText = .ok cs)
    (named : formatOf path.suffix = .ok format) :
    ofFile yaml t path = match readDocument yaml format cs with
      | .error .malformed => .error (.settingsMalformed path.toText)
      | .error (.refused cause) => .error cause.fault
      | .ok (.map entries) => ofMap entries
      | .ok _ => .error (.settingsNotMapping path.toText) := by
  rw [ofFile, isPresent_of_readText text, text, named]
  rfl

/-- A part of a document that has no value is never reported. -/
theorem isSettingsFault_refusal (cause : Refusal) : Run.isSettingsFault cause.fault = false := by
  cases cause with
  | noCharacter number =>
      rw [Refusal.fault]
      split <;> rfl
  | _ => rfl

/-- What a program does not report of a file is what cannot be reported. -/
theorem ofFile_unreported_iff (text : t.readText path.toText = .ok cs)
    (named : formatOf path.suffix = .ok format) :
    (∃ fault, ofFile yaml t path = .error fault ∧ Run.isSettingsFault fault = false) ↔
      Unreported yaml format cs := by
  rw [ofFile_eq text named, Unreported]
  cases document : readDocument yaml format cs with
  | error fault =>
      cases fault with
      | malformed => simp [Run.isSettingsFault]
      | refused cause => simp [isSettingsFault_refusal cause]
  | ok v =>
      cases v with
      | map entries =>
          simp only [reduceCtorEq, exists_false, false_or, Except.ok.injEq, Value.map.injEq,
            exists_eq_left']
          rw [← ofMap_eq_wrongKind_iff]
          constructor
          · rintro ⟨fault, refused, unreported⟩
            rw [(isSettingsFault_of_ofMap refused).mp unreported] at refused
            exact refused
          · intro refused
            exact ⟨_, refused, (isSettingsFault_of_ofMap refused).mpr rfl⟩
      | _ => simp [Run.isSettingsFault]

/-- The environment is refused for a variable only. -/
theorem exists_badVariable_of_overrideFrom {os : List Override}
    (refused : (overrideFrom env os s).2 = some fault) :
    ∃ name value, fault = .badVariable name value := by
  obtain ⟨before, o, after, rfl, accepted, odd⟩ :=
    exists_first ((exists_fault_iff s).mp ⟨fault, refused⟩)
  obtain ⟨t, isSet, -⟩ := odd.2
  rw [overrideFrom_refused_behind accepted odd isSet] at refused
  exact ⟨o.name, t, (Option.some.inj refused).symm⟩

/-- Settings are loaded, or a fault is found that a program reports. -/
def Reported (loaded : Except Fault Settings) : Prop :=
  (∃ s, loaded = .ok s) ∨ ∃ fault, loaded = .error fault ∧ Run.isSettingsFault fault = true

theorem not_reported_iff {loaded : Except Fault Settings} :
    ¬ Reported loaded ↔ ∃ fault, loaded = .error fault ∧ Run.isSettingsFault fault = false := by
  cases loaded with
  | ok s => simp [Reported]
  | error fault => simp [Reported]

/-- The environment hides no fault of a file, and adds none that is not reported. -/
theorem reported_load_iff {given : Option Text} {useEnvironment : Bool} {name : Text}
    (file : fileName env given useEnvironment = some name) :
    Reported (load yaml t env given useEnvironment) ↔
      Reported (ofFile yaml t (Path.ofText name)) := by
  rw [load, file]
  dsimp only
  cases taken : ofFile yaml t (Path.ofText name) with
  | error fault => simp [Reported, bind, Except.bind]
  | ok s =>
      have loaded : Reported (.ok s) := .inl ⟨s, rfl⟩
      refine iff_of_true ?_ loaded
      cases useEnvironment with
      | false => exact loaded
      | true =>
          cases overridden : s.override env with
          | mk s' refusal =>
              simp only [bind, Except.bind, overridden, ↓reduceIte]
              cases refusal with
              | none => exact .inl ⟨s', rfl⟩
              | some fault =>
                  obtain ⟨o, value, rfl⟩ :=
                    exists_badVariable_of_overrideFrom (congrArg Prod.snd overridden)
                  exact .inr ⟨_, rfl, rfl⟩

/-- Loading a file whose text can be read in the format that its suffix names gives settings or a
fault that is reported, exactly if its text is not one that goes unreported. -/
theorem reported_iff {given : Option Text} {useEnvironment : Bool} {name : Text}
    (file : fileName env given useEnvironment = some name)
    (text : t.readText (Path.ofText name).toText = .ok cs)
    (named : formatOf (Path.ofText name).suffix = .ok format) :
    Reported (load yaml t env given useEnvironment) ↔ ¬ Unreported yaml format cs := by
  rw [reported_load_iff file, ← ofFile_unreported_iff text named, ← not_reported_iff,
    Classical.not_not]

end Settings

end Bytewise
