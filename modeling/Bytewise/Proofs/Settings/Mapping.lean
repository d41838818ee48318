import Bytewise.Proofs.Value
import Bytewise.Settings.File

/-!
# Settings from a mapping of sections

A mapping gives settings exactly if every section in it is accepted: it is empty, or it is a mapping
whose keys are settings of the section (`Settings.exists_ofMap_iff`). Each setting is then the value
under its section and key, and the default if there is none (`Settings.ofMap_of_accepted`). Nothing
else in the mapping matters, because nothing else is looked up.
-/

namespace Bytewise

def Field.sectionOf : Field → Section
  | .ignorePatterns | .skipHidden | .headerSniffBytes | .useMmap => .cloc
  | .algorithm | .chunkSize => .checksum
  | .bufferSize => .countfile
  | .bytesPerLine | .suppressDuplicates => .hexdump
  | .logLevel | .logFormat => .logging

theorem Field.mem_fields_iff {f : Field} {sec : Section} : f ∈ sec.fields ↔ f.sectionOf = sec := by
  cases f <;> cases sec <;> decide

/-- What may stand under the heading of a section: anything empty, or a mapping with no keys but
those of the section's settings. -/
def Section.Accepts (sec : Section) (v : Value) : Prop :=
  v.truthy = false ∨
    ∃ values, v = .map values ∧ ∀ e ∈ values, ∃ f ∈ sec.fields, e.1 = .text f.key

theorem Settings.ext_get {s s' : Settings} (same : ∀ f, s.get f = s'.get f) : s = s' :=
  congrArg Settings.mk (funext same)

namespace Settings

variable {sec : Section} {v : Value} {values entries entries' : List (Value × Value)} {f : Field}
  {s s' : Settings}

/-- The value that a mapping of sections has for a setting. -/
def given? (entries : List (Value × Value)) (f : Field) : Option Value :=
  match Value.lookup (.text f.sectionOf.heading) entries with
  | some (.map values) => Value.lookup (.text f.key) values
  | _ => none

def Accepted (entries : List (Value × Value)) : Prop :=
  ∀ sec v, Value.lookup (.text (Section.heading sec)) entries = some v → sec.Accepts v

/-! ## One section -/

/-- Names can be had of no keys only if there are no keys. -/
theorem eq_nil_of_mapM_eq {α β : Type} {g : α → Option β} {xs : List α}
    (mapped : xs.mapM g = some []) : xs = [] := by
  cases xs with
  | nil => rfl
  | cons x xs => simp [List.mapM_cons, Option.bind_eq_some_iff] at mapped

/-- Only a mapping passes the check. -/
theorem eq_map_of_checkSection (checked : checkSection sec v = .ok values) :
    v = .map values := by
  rw [checkSection.eq_def] at checked
  split at checked
  next => cases checked
  next =>
    split at checked
    next => cases checked
    next =>
      dsimp only at checked
      split at checked
      next => cases checked
      next =>
        cases v with
        | map entries =>
            cases checked
            rfl
        | _ => cases checked
      next => cases checked

/-- A mapping passes the check exactly if its keys are those of settings of the section. -/
theorem checkSection_map_iff :
    checkSection sec (.map values) = .ok values ↔
      ∀ e ∈ values, ∃ f ∈ sec.fields, e.1 = .text f.key := by
  have known (key : Value) : (sec.fields.any fun f => key.sameKey (.text f.key)) = true ↔
      ∃ f ∈ sec.fields, key = .text f.key := by
    simp [Value.sameKey_text_iff]
  constructor
  · intro checked e member
    rw [checkSection.eq_def] at checked
    simp only [Value.items?] at checked
    split at checked
    next => cases checked
    next =>
      split at checked
      next => cases checked
      next named =>
        have none := List.filter_eq_nil_iff.mp (eq_nil_of_mapM_eq named)
        have isKnown := none e.1 (List.mem_map_of_mem member)
        rw [← known]
        simpa using isKnown
      next => cases checked
  · intro keys
    have areKeys : (values.map Prod.fst).all Value.isKey = true := by
      simp only [List.all_map, List.all_eq_true]
      intro e member
      obtain ⟨f, -, key⟩ := keys e member
      simp [key, Value.isKey]
    have none : (values.map Prod.fst).filter
        (fun key => !sec.fields.any fun f => key.sameKey (.text f.key)) = [] := by
      rw [List.filter_eq_nil_iff]
      intro key member
      obtain ⟨e, inside, rfl⟩ := List.mem_map.mp member
      simpa using (known e.1).mpr (keys e inside)
    simp only [checkSection, Value.items?, areKeys, none, List.mapM_nil]
    rfl

/-- Values under the keys of a section's settings are taken over; all other settings stay. -/
theorem get_foldl_set (fields : List Field) (values : List (Value × Value)) (s : Settings)
    (g : Field) :
    (fields.foldl (fun s f => match Value.lookup (.text f.key) values with
      | some v => s.set f v
      | none => s) s).get g =
      if g ∈ fields then (Value.lookup (.text g.key) values).getD (s.get g) else s.get g := by
  induction fields generalizing s with
  | nil => simp
  | cons f fields ih =>
      rw [List.foldl_cons, ih]
      by_cases first : g = f
      · subst first
        cases Value.lookup (.text g.key) values <;> simp
      · cases Value.lookup (.text f.key) values <;> simp [first]

/-- The settings after the section that a mapping has under a heading has been taken over. -/
def taken (entries : List (Value × Value)) (s : Settings) (sec : Section) : Settings :=
  ⟨fun f => if f.sectionOf = sec then (given? entries f).getD (s.get f) else s.get f⟩

/-- An empty section gives no values. -/
theorem given?_of_empty (found : Value.lookup (.text f.sectionOf.heading) entries = some v)
    (empty : v.truthy = false) : given? entries f = none := by
  rw [given?, found]
  split
  next values same =>
    cases same
    have none : values = [] := by simpa [Value.truthy] using empty
    rw [none]
    rfl
  next => rfl

theorem takeSection_of_accepts
    (accepted : ∀ v, Value.lookup (.text sec.heading) entries = some v → sec.Accepts v) :
    takeSection entries s sec = .ok (taken entries s sec) := by
  -- Without values in the section the settings stay as they are.
  have kept (none : ∀ f : Field, f.sectionOf = sec → given? entries f = none) :
      taken entries s sec = s := by
    apply ext_get
    intro f
    rw [taken]
    dsimp only
    split
    next inside => rw [none f inside, Option.getD_none]
    next => rfl
  rw [takeSection]
  cases found : Value.lookup (.text sec.heading) entries with
  | none =>
      rw [kept]
      rintro f rfl
      rw [given?, found]
  | some v =>
      cases truthy : v.truthy with
      | false =>
          rw [kept]
          · simp [truthy]
          · rintro f rfl
            exact given?_of_empty found truthy
      | true =>
          obtain empty | ⟨values, rfl, keys⟩ := accepted v found
          · rw [truthy] at empty
            cases empty
          simp only [truthy, checkSection_map_iff.mpr keys, Bool.not_true, Bool.false_eq_true,
            ↓reduceIte, bind, Except.bind, pure, Except.pure]
          congr 1
          apply ext_get
          intro f
          refine (get_foldl_set sec.fields values s f).trans ?_
          simp only [taken, Field.mem_fields_iff]
          split
          next inside =>
            subst inside
            rw [given?, found]
          next => rfl

theorem accepts_of_takeSection (took : takeSection entries s sec = .ok s')
    (found : Value.lookup (.text sec.heading) entries = some v) : sec.Accepts v := by
  rw [takeSection, found] at took
  cases truthy : v.truthy with
  | false => exact .inl truthy
  | true =>
      simp only [truthy, Bool.not_true, Bool.false_eq_true, ↓reduceIte] at took
      cases checked : checkSection sec v with
      | error fault =>
          rw [checked] at took
          cases took
      | ok values =>
          obtain rfl := eq_map_of_checkSection checked
          exact .inr ⟨values, rfl, checkSection_map_iff.mp checked⟩

/-! ## All sections -/

theorem foldlM_takeSection_of_accepted (accepted : Accepted entries) (secs : List Section)
    (s : Settings) :
    secs.foldlM (takeSection entries) s = .ok (secs.foldl (taken entries) s) := by
  induction secs generalizing s with
  | nil => rfl
  | cons sec secs ih =>
      rw [List.foldlM_cons, takeSection_of_accepts (accepted sec)]
      exact ih (taken entries s sec)

theorem accepts_of_foldlM {secs : List Section}
    (took : secs.foldlM (takeSection entries) s = .ok s') (member : sec ∈ secs)
    (found : Value.lookup (.text sec.heading) entries = some v) : sec.Accepts v := by
  induction secs generalizing s with
  | nil => cases member
  | cons first secs ih =>
      rw [List.foldlM_cons] at took
      cases step : takeSection entries s first with
      | error fault =>
          rw [step] at took
          cases took
      | ok s₁ =>
          rw [step] at took
          obtain rfl | later := List.mem_cons.mp member
          · exact accepts_of_takeSection step found
          · exact ih took later

theorem Section.mem_all (sec : Section) : sec ∈ Section.all := by
  cases sec <;> decide

/-- The values of a mapping are taken over the defaults. -/
theorem ofMap_of_accepted (accepted : Accepted entries) :
    ofMap entries = .ok ⟨fun f => (given? entries f).getD f.default⟩ := by
  rw [ofMap, foldlM_takeSection_of_accepted accepted]
  congr 1
  apply ext_get
  intro f
  cases f <;> simp [Section.all, taken, Field.sectionOf, Settings.default]

theorem exists_ofMap_iff : (∃ s, ofMap entries = .ok s) ↔ Accepted entries := by
  constructor
  · rintro ⟨s, took⟩ sec v found
    exact accepts_of_foldlM took (Section.mem_all sec) found
  · exact fun accepted => ⟨_, ofMap_of_accepted accepted⟩

/-- Nothing matters but what stands under the headings of the sections. -/
theorem ofMap_congr (same : ∀ sec : Section, Value.lookup (.text sec.heading) entries' =
    Value.lookup (.text sec.heading) entries) : ofMap entries' = ofMap entries := by
  have step : takeSection entries' = takeSection entries := by
    funext s sec
    rw [takeSection, takeSection, same]
  rw [ofMap, ofMap, step]

end Settings

end Bytewise
