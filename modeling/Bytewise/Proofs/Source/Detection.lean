import Bytewise.Source.Registry

/-!
# Detecting languages

Whatever way a language is detected, it is one of the registered ones, and an identifier stands for
one of them only. Detection fails only where the beginning of a header is asked for in a size that
no file takes, or under a name that the system does not take.
-/

namespace Bytewise

/-- Faults that concern one file: a survey records or notes them and goes on. -/
def Fault.OfFile : Fault → Prop
  | .unreadable _ _ => True
  | .unsupported _ => True
  | _ => False

theorem FileTree.not_ofFile_of_find {t : FileTree} {name : Text} {fault : Fault}
    (refused : t.find name = .error fault) : ¬ fault.OfFile := by
  have located : t.locate name = .error fault := by
    rw [find] at refused
    cases outcome : t.locate name with
    | error other =>
        rw [outcome] at refused
        exact congrArg Except.error (Except.error.inj refused)
    | ok located =>
        rw [outcome] at refused
        cases refused
  rw [locate, locateWith] at located
  split at located
  · cases located
    exact id
  · split at located
    · cases located
      exact id
    · split at located
      · cases located
        exact id
      · split at located <;> cases located
        exact id

theorem FileTree.not_ofFile_of_openRaw {t : FileTree} {name : Text} {fault : Fault}
    (refused : t.openRaw name = .error fault) : ¬ fault.OfFile := by
  rw [openRaw] at refused
  split at refused
  next other found =>
    cases refused
    exact not_ofFile_of_find found
  next node _ =>
    cases content : node.content with
    | error cause =>
        rw [content] at refused
        cases refused
        exact id
    | ok data =>
        rw [content] at refused
        cases refused

theorem Stream.not_ofFile_of_read {s : Stream} {size : ReadSize} {fault : Fault}
    (refused : s.read size = .error fault) : ¬ fault.OfFile := by
  rw [read.eq_def] at refused
  split at refused
  next found =>
    cases refused
    cases size <;> simp only [refusal?, Option.ite_none_right_eq_some, Option.some.injEq,
      reduceCtorEq] at found
    · rw [← found.2]
      exact id
    · rw [← found.2]
      exact id
    · rw [← found]
      exact id
  next =>
    split at refused <;> cases refused
    exact id
  next => cases refused

/-- Reading a file that is open fails only for a size that files refuse. -/
theorem Stream.refusal?_of_read_error {data : Bytes} {size : ReadSize} {fault : Fault}
    (refused : (ofFile data).read size = .error fault) :
    (ofFile data).refusal? size = some fault := by
  cases size with
  | tooLarge | notNumber | negative => exact congrArg some (Except.error.inj refused)
  | everything | atMost count => cases refused

namespace Registry

variable {r : Registry} {t : FileTree} {name : Text} {sniff : ReadSize} {l l' : Language}

theorem eq_of_id_eq (known : l ∈ r.languages) (known' : l' ∈ r.languages) (same : l.id = l'.id) :
    l = l' := by
  have distinct := r.ids_distinct
  generalize r.languages = languages at *
  induction distinct with
  | nil => cases known
  | cons apart _ ih =>
      obtain first | later := List.mem_cons.mp known
      · obtain first' | later' := List.mem_cons.mp known'
        · exact first.trans first'.symm
        · exact absurd (first ▸ same) (apart l' later')
      · obtain first' | later' := List.mem_cons.mp known'
        · exact absurd (first' ▸ same.symm) (apart l later)
        · exact ih later later'

theorem mem_of_detect {extension : Text} (found : r.detect extension = some l) :
    l ∈ r.languages := by
  obtain ⟨before, after, owners, _⟩ := List.lookup_eq_some_iff.mp found
  exact r.owners_registered (extension, l) (by rw [owners]; simp)

theorem mem_of_byName (found : r.byName name = some l) : l ∈ r.languages :=
  List.mem_of_find?_eq_some found

/-- The ways in which the detection of a file's language can end. -/
inductive Detects (r : Registry) (t : FileTree) (name : Text) (sniff : ReadSize) :
    Except Fault (Option Language) → Prop where
  | unknown (unowned : r.detect (Path.ofText name).extension = none) :
      Detects r t name sniff (.ok none)
  | owner {l : Language} (owned : r.detect (Path.ofText name).extension = some l) :
      Detects r t name sniff (.ok (some l))
  | alternative {owner l : Language} (owned : r.detect (Path.ofText name).extension = some owner)
      (named : r.byName headerAlternative = some l) : Detects r t name sniff (.ok (some l))
  | unopened {owner : Language} {fault : Fault}
      (owned : r.detect (Path.ofText name).extension = some owner)
      (refused : t.openRaw name = .error fault) (other : ∀ cause, fault ≠ .system cause) :
      Detects r t name sniff (.error fault)
  | unread {owner : Language} {fault : Fault} {data : Bytes}
      (owned : r.detect (Path.ofText name).extension = some owner)
      (opened : t.openRaw name = .ok data)
      (refused : (Stream.ofFile data).read sniff = .error fault) :
      Detects r t name sniff (.error fault)

theorem detects (r : Registry) (t : FileTree) (name : Text) (sniff : ReadSize) :
    Detects r t name sniff (r.detectFile t name sniff).language := by
  rw [detectFile]
  split
  next absent => exact .unknown absent
  next language owned =>
    split
    · exact .owner owned
    split
    · exact .owner owned
    next alternative named =>
      split
      · exact .owner owned
      next fault other refused => exact .unopened owned refused fun cause => other cause
      next data opened =>
        split
        next fault refused => exact .unread owned opened refused
        next head _ _ =>
          by_cases looks : looksLikeAlternative head
          · simpa [looks] using Detects.alternative owned named
          · simpa [looks] using Detects.owner owned

/-- A language detected for a file is registered. -/
theorem mem_of_detectFile (found : (r.detectFile t name sniff).language = .ok (some l)) :
    l ∈ r.languages := by
  have ending := detects r t name sniff
  rw [found] at ending
  cases ending with
  | owner owned => exact mem_of_detect owned
  | alternative _ named => exact mem_of_byName named

/-- A file whose extension is registered has a language, unless its content cannot be looked at. -/
theorem detectFile_ne_none (registered : (r.detect (Path.ofText name).extension).isSome) :
    (r.detectFile t name sniff).language ≠ .ok none := by
  intro found
  have ending := detects r t name sniff
  rw [found] at ending
  cases ending with
  | unknown absent =>
      rw [absent] at registered
      cases registered

/-- Detection fails only by faults that no file is blamed for. -/
theorem not_ofFile_of_detectFile {fault : Fault}
    (failed : (r.detectFile t name sniff).language = .error fault) : ¬ fault.OfFile := by
  have ending := detects r t name sniff
  rw [failed] at ending
  cases ending with
  | unopened _ refused _ => exact FileTree.not_ofFile_of_openRaw refused
  | unread _ _ refused => exact Stream.not_ofFile_of_read refused

end Registry

end Bytewise
