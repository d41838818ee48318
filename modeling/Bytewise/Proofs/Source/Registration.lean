import Bytewise.Proofs.Source.Detection
import Bytewise.Source.LanguageTable

/-!
# Registering languages

A registry keeps its languages twice: as a table in the order of registration, and as the owners of
extensions. The two agree at any time: the owner of an extension is the first language of the table
that declares it. `attempt_eq_none_iff` says all that a successful registration does. A refused one
leaves the registry as it was, since it is refused before anything is changed
(`attempt_eq_some`). The rest follows one attempt after the other.

Languages given as a list and tables read from files are registered by the same attempts.
-/

namespace Bytewise

namespace Registry

variable {r r' : Registry} {l : Language} {extension : Text}

/-! ## One attempt -/

/-- A conflict is one with a registered language, about its identifier or its name. -/
theorem conflict?_eq_some {others : List Language} {fault : Fault}
    (found : conflict? l others = some fault) :
    (∃ other ∈ others, other.id = l.id ∨ other.name = l.name) ∧
      (fault = .duplicateId l.id l.name ∨ fault = .duplicateName l.name) := by
  induction others with
  | nil => cases found
  | cons other rest ih =>
      rw [conflict?] at found
      split at found
      next same =>
        exact ⟨⟨other, List.mem_cons_self, .inl same⟩, .inl (Option.some.inj found).symm⟩
      next =>
        split at found
        next same =>
          exact ⟨⟨other, List.mem_cons_self, .inr same⟩, .inr (Option.some.inj found).symm⟩
        next =>
          obtain ⟨⟨conflicting, member, same⟩, named⟩ := ih found
          exact ⟨⟨conflicting, List.mem_cons_of_mem _ member, same⟩, named⟩

/-- Work after other work, which it follows unless that failed. -/
theorem after_bind {α : Type} (r : Registry) (first : Registering α)
    (rest : α → Registering Unit) :
    r.after (first >>= rest) = match first.run.run r with
      | (.ok a, r') => r'.after (rest a)
      | (.error fault, r') => (r', some fault) := by
  rw [after, ExceptT.run_bind, StateT.run_bind]
  cases first.run.run r with
  | mk outcome r' => cases outcome <;> rfl

theorem after_modify_claims (r : Registry) (l : Language) (extensions : List Text) :
    r.after (extensions.forM fun extension => modify (·.claim l extension)) =
      (extensions.foldl (·.claim l ·) r, none) := by
  induction extensions generalizing r with
  | nil => rfl
  | cons extension rest ih =>
      rw [List.forM, after_bind]
      exact ih (r.claim l extension)

/-- Claims change the owners only, if the language is in the table. -/
theorem foldl_claim (known : l ∈ r.languages) (extensions : List Text) :
    (extensions.foldl (·.claim l ·) r).languages = r.languages ∧
      (extensions.foldl (·.claim l ·) r).owners = extensions.foldl (claimed l) r.owners := by
  induction extensions generalizing r with
  | nil => exact ⟨rfl, rfl⟩
  | cons extension rest ih =>
      have once : (r.claim l extension).languages = r.languages ∧
          (r.claim l extension).owners = claimed l r.owners extension := by
        rw [claim, dif_pos known]
        exact ⟨rfl, rfl⟩
      rw [List.foldl_cons, List.foldl_cons, ← once.2, ← once.1]
      exact ih (once.1 ▸ known)

theorem attempt_of_conflict {fault : Fault} (conflict : conflict? l r.languages = some fault) :
    r.attempt l = (r, some fault) := by
  rw [attempt, register, after_bind]
  show r.after _ = _
  split
  next found =>
    obtain rfl : _ = fault := Option.some.inj (found.symm.trans conflict)
    rfl
  next free => cases free.symm.trans conflict

theorem attempt_of_free (free : conflict? l r.languages = none) :
    r.attempt l = (l.extensions.foldl (·.claim l ·) (r.enter l free), none) := by
  rw [attempt, register, after_bind]
  show r.after _ = _
  split
  next conflict => cases free.symm.trans conflict
  next =>
    rw [after_bind]
    exact after_modify_claims (r.enter l free) l l.extensions

/-- A language is registered if no other has its identifier or its name. It becomes the last of the
table and claims its extensions; this is all that changes. -/
theorem attempt_eq_none_iff :
    r.attempt l = (r', none) ↔
      (∀ other ∈ r.languages, other.id ≠ l.id ∧ other.name ≠ l.name) ∧
        r'.languages = r.languages ++ [l] ∧
        r'.owners = l.extensions.foldl (claimed l) r.owners := by
  rw [← conflict?_eq_none_iff]
  cases found : conflict? l r.languages with
  | some fault => simp [attempt_of_conflict found]
  | none =>
      obtain ⟨languages, owners⟩ := foldl_claim (r := r.enter l found) (l := l)
        (List.mem_append_right _ (List.mem_singleton_self l)) l.extensions
      rw [attempt_of_free found, Prod.mk.injEq, and_iff_left rfl]
      constructor
      · rintro rfl
        exact ⟨rfl, languages, owners⟩
      · rintro ⟨-, languages', owners'⟩
        generalize l.extensions.foldl (·.claim l ·) (r.enter l found) = entered at *
        cases entered
        cases r'
        cases languages.trans languages'.symm
        cases owners.trans owners'.symm
        rfl

/-- A language is refused for its identifier or its name, and only if a registered one has it. The
registry is what it was before. -/
theorem attempt_eq_some {fault : Fault} (refused : r.attempt l = (r', some fault)) :
    r' = r ∧ (∃ other ∈ r.languages, other.id = l.id ∨ other.name = l.name) ∧
      (fault = .duplicateId l.id l.name ∨ fault = .duplicateName l.name) := by
  cases found : conflict? l r.languages with
  | some conflict =>
      rw [attempt_of_conflict found] at refused
      cases refused
      exact ⟨rfl, conflict?_eq_some found⟩
  | none =>
      rw [attempt_of_free found] at refused
      cases refused

/-- Registering a language removes none. -/
theorem mem_of_attempt {l' : Language} (known : l' ∈ r.languages) :
    l' ∈ (r.attempt l).1.languages := by
  cases outcome : r.attempt l with
  | mk after fault? =>
      cases fault? with
      | none =>
          obtain ⟨-, languages, -⟩ := attempt_eq_none_iff.mp outcome
          rw [languages]
          exact List.mem_append_left _ known
      | some fault =>
          rw [(attempt_eq_some outcome).1]
          exact known

theorem lookup_claimed {owners : List (Text × Language)} {wanted : Text} :
    (claimed l owners wanted).lookup extension =
      (owners.lookup extension).or (if extension = wanted then some l else none) := by
  rw [claimed]
  split
  next owned =>
    split
    next same =>
      subst same
      obtain ⟨owner, found⟩ := Option.isSome_iff_exists.mp owned
      simp [found]
    next => simp
  next =>
    rw [List.lookup_append]
    by_cases same : extension = wanted
    · simp [same]
    · simp [same, List.lookup_cons, beq_false_of_ne same]

/-- A language owns what it declares, save what others own already. -/
theorem lookup_foldl_claimed (extensions : List Text) (owners : List (Text × Language)) :
    (extensions.foldl (claimed l) owners).lookup extension =
      (owners.lookup extension).or (if extension ∈ extensions then some l else none) := by
  induction extensions generalizing owners with
  | nil => simp
  | cons wanted rest ih =>
      rw [List.foldl_cons, ih, lookup_claimed, Option.or_assoc]
      by_cases first : extension = wanted
      · simp [first]
      · simp [first]

/-! ## The two views of a registry -/

/-- The owners of extensions agree with the table: each is the first to declare its extension. -/
def Agrees (r : Registry) : Prop :=
  ∀ extension, r.detect extension = r.languages.find? (extension ∈ ·.extensions)

theorem agrees_empty : empty.Agrees := fun _ => rfl

theorem Agrees.attempt (agrees : r.Agrees) (l : Language) : (r.attempt l).1.Agrees := by
  cases outcome : r.attempt l with
  | mk r' fault? =>
      cases fault? with
      | some fault =>
          rw [(attempt_eq_some outcome).1]
          exact agrees
      | none =>
          obtain ⟨_, languages, owners⟩ := attempt_eq_none_iff.mp outcome
          intro extension
          have before : r.owners.lookup extension = r.languages.find? (extension ∈ ·.extensions) :=
            agrees extension
          rw [detect, owners, lookup_foldl_claimed, before, languages, List.find?_append]
          by_cases declared : extension ∈ l.extensions <;> simp [declared]

theorem supports_eq_isSome_detect : r.supports extension = (r.detect extension).isSome := by
  rw [supports, detect]
  induction r.owners with
  | nil => rfl
  | cons owner rest ih =>
      obtain ⟨name, l⟩ := owner
      by_cases same : extension = name
      · simp [same]
      · simpa [List.lookup_cons, beq_false_of_ne same, same] using ih

theorem byName_eq_some_iff {name : Text} :
    r.byName name = some l ↔ l ∈ r.languages ∧ l.name = name := by
  constructor
  · intro found
    exact ⟨mem_of_byName found, by simpa using List.find?_some found⟩
  · rintro ⟨member, rfl⟩
    have distinct := r.names_distinct
    rw [byName]
    generalize r.languages = languages at *
    induction distinct with
    | nil => cases member
    | cons apart _ ih =>
        obtain rfl | later := List.mem_cons.mp member
        · simp
        · rw [List.find?_cons_of_neg (by simpa using apart l later), ih later]

structure Orderly (r : Registry) : Prop where
  ids_nodup : (r.languages.map (·.id)).Nodup
  id_ne_zero : ∀ l ∈ r.languages, l.id ≠ 0
  names_nodup : (r.languages.map (·.name)).Nodup
  /-- An extension belongs to the first language of the table that declares it, … -/
  detect_eq : ∀ extension, r.detect extension = r.languages.find? (extension ∈ ·.extensions)
  /-- … and to none only if none does. -/
  detect_eq_none_iff : ∀ extension,
    r.detect extension = none ↔ ∀ l ∈ r.languages, extension ∉ l.extensions
  supports_iff : ∀ extension, r.supports extension ↔ (r.detect extension).isSome
  byName_iff : ∀ name l, r.byName name = some l ↔ l ∈ r.languages ∧ l.name = name
  refused_iff : ∀ l, (∃ fault, (r.attempt l).2 = some fault) ↔
    ∃ other ∈ r.languages, other.id = l.id ∨ other.name = l.name
  /-- A refusal names what is taken, and changes neither the table nor the owners. -/
  refused : ∀ l fault, (r.attempt l).2 = some fault →
    (fault = .duplicateId l.id l.name ∨ fault = .duplicateName l.name) ∧
      (r.attempt l).1.languages = r.languages ∧ (r.attempt l).1.owners = r.owners

theorem Agrees.orderly (agrees : r.Agrees) : r.Orderly where
  ids_nodup := List.pairwise_map.mpr r.ids_distinct
  id_ne_zero l _ := l.id_ne_zero
  names_nodup := List.pairwise_map.mpr r.names_distinct
  detect_eq := agrees
  detect_eq_none_iff extension := by simp [agrees extension]
  supports_iff extension := by rw [supports_eq_isSome_detect]
  byName_iff _ _ := byName_eq_some_iff
  refused_iff l := by
    cases outcome : r.attempt l with
    | mk r' fault? =>
        cases fault? with
        | some fault =>
            exact iff_of_true ⟨fault, rfl⟩ (attempt_eq_some outcome).2.1
        | none =>
            obtain ⟨free, _⟩ := attempt_eq_none_iff.mp outcome
            refine iff_of_false (fun ⟨_, absurdity⟩ => by cases absurdity) ?_
            rintro ⟨other, member, sameId | sameName⟩
            · exact (free other member).1 sameId
            · exact (free other member).2 sameName
  refused l fault found := by
    have outcome : r.attempt l = ((r.attempt l).1, some fault) := Prod.ext rfl found
    obtain ⟨same, -, named⟩ := attempt_eq_some outcome
    exact ⟨named, congrArg languages same, congrArg owners same⟩

/-! ## Attempts one after the other -/

/-- What a registry is after attempts to register languages, whether they succeed or not. -/
def attemptAll (r : Registry) : List Language → Registry
  | [] => r
  | l :: rest => (r.attempt l).1.attemptAll rest

def successes (r : Registry) : List Language → List Language
  | [] => []
  | l :: rest =>
    match r.attempt l with
    | (after, none) => l :: after.successes rest
    | (after, some _) => after.successes rest

theorem Agrees.attemptAll (agrees : r.Agrees) (calls : List Language) :
    (r.attemptAll calls).Agrees := by
  induction calls generalizing r with
  | nil => exact agrees
  | cons l rest ih => exact ih (agrees.attempt l)

theorem languages_attemptAll (r : Registry) (calls : List Language) :
    (r.attemptAll calls).languages = r.languages ++ r.successes calls := by
  induction calls generalizing r with
  | nil => simp [attemptAll, successes]
  | cons l rest ih =>
      rw [attemptAll, successes]
      cases outcome : r.attempt l with
      | mk r' fault? =>
          cases fault? with
          | none =>
              obtain ⟨_, languages, _⟩ := attempt_eq_none_iff.mp outcome
              simp [ih, languages]
          | some fault =>
              obtain ⟨rfl, _⟩ := attempt_eq_some outcome
              simp [ih]

/-! ## Lists and tables of languages -/

theorem after_register_bind (r : Registry) (l : Language) (rest : Unit → Registering Unit) :
    r.after (register l >>= rest) = match r.attempt l with
      | (r', none) => r'.after (rest ())
      | (r', some fault) => (r', some fault) := by
  rw [after_bind, attempt, after]
  rcases (register l).run.run r with ⟨_ | ⟨⟩, r'⟩ <;> rfl

theorem registerAll_cons (l : Language) (rest : List Language) :
    registerAll (l :: rest) = register l >>= fun _ => registerAll rest := rfl

theorem addEntries_cons (entry : Value) (rest : List Value) :
    addEntries (entry :: rest) =
      (MonadExcept.ofExcept (Language.ofValue entry) >>= register) >>= fun _ => addEntries rest :=
  rfl

theorem after_registerAll_eq_none {languages : List Language}
    (registered : r.after (registerAll languages) = (r', none)) :
    r' = r.attemptAll languages ∧ r.successes languages = languages := by
  induction languages generalizing r with
  | nil =>
      cases registered
      exact ⟨rfl, rfl⟩
  | cons l rest ih =>
      rw [registerAll_cons, after_register_bind] at registered
      rw [attemptAll, successes]
      rcases outcome : r.attempt l with ⟨after, _ | fault⟩
      · rw [outcome] at registered
        obtain ⟨same, succeeded⟩ := ih registered
        simp [same, succeeded]
      · rw [outcome] at registered
        cases registered

/-- The entries of a table are registered as the languages that they describe. -/
theorem after_addEntries_eq_none {entries : List Value}
    (added : r.after (addEntries entries) = (r', none)) :
    ∃ languages, entries.mapM Language.ofValue = .ok languages ∧
      r.after (registerAll languages) = (r', none) := by
  induction entries generalizing r with
  | nil => exact ⟨[], rfl, added⟩
  | cons entry rest ih =>
      rw [addEntries_cons, bind_assoc, after_bind] at added
      cases described : Language.ofValue entry with
      | error fault =>
          rw [described] at added
          cases added
      | ok l =>
          rw [described] at added
          replace added : r.after (register l >>= fun _ => addEntries rest) = (r', none) := added
          rw [after_register_bind] at added
          rcases outcome : r.attempt l with ⟨after, _ | fault⟩
          · rw [outcome] at added
            obtain ⟨languages, read, registered⟩ := ih added
            refine ⟨l :: languages, ?_, ?_⟩
            · simp [List.mapM_cons, described, read, bind, Except.bind, pure, Except.pure]
            · rw [registerAll_cons, after_register_bind, outcome]
              exact registered
          · rw [outcome] at added
            cases added

theorem made_eq_ok {work : Registering Unit} (succeeded : made work = .ok r) :
    empty.after work = (r, none) := by
  rw [made] at succeeded
  split at succeeded <;> cases succeeded
  assumption

theorem ofTable_eq_ok {yaml : YamlPackage} {t : FileTree} {path : Path}
    (succeeded : ofTable yaml t path = .ok r) :
    ∃ entries, readEntries yaml t path.toText = .ok entries ∧
      empty.after (addEntries entries) = (r, none) := by
  rw [ofTable] at succeeded
  cases present : t.isPresent path.toText with
  | error fault =>
      rw [present] at succeeded
      cases succeeded
  | ok there =>
      cases there with
      | false =>
          rw [present] at succeeded
          cases succeeded
      | true =>
          rw [present] at succeeded
          have added : empty.after (addTable yaml t path) = (r, none) := made_eq_ok succeeded
          rw [addTable, present] at added
          cases read : readEntries yaml t path.toText with
          | error fault =>
              rw [read] at added
              cases added
          | ok entries =>
              rw [read] at added
              exact ⟨entries, rfl, added⟩

theorem orderly_of_registerAll {languages : List Language}
    (registered : empty.after (registerAll languages) = (r, none)) :
    r.Orderly ∧ r.languages = languages := by
  obtain ⟨rfl, succeeded⟩ := after_registerAll_eq_none registered
  refine ⟨(agrees_empty.attemptAll languages).orderly, ?_⟩
  rw [languages_attemptAll, succeeded]
  rfl

/-- A registry is orderly after any attempts to register languages, and its table holds those that
succeeded, in order. So is the registry of given languages, with just these in its table, and that
of a table in a file, with the languages of its entries. -/
theorem orderly_after_attempts :
    (∀ calls : List Language, (empty.attemptAll calls).Orderly ∧
      (empty.attemptAll calls).languages = empty.successes calls) ∧
    (∀ languages r, ofLanguages languages = .ok r → r.Orderly ∧ r.languages = languages) ∧
    (∀ yaml t path r, ofTable yaml t path = .ok r → r.Orderly ∧
      ∃ entries, readEntries yaml t path.toText = .ok entries ∧
        entries.mapM Language.ofValue = .ok r.languages) := by
  refine ⟨?_, ?_, ?_⟩
  · intro calls
    exact ⟨(agrees_empty.attemptAll calls).orderly, languages_attemptAll empty calls⟩
  · intro languages r made
    exact orderly_of_registerAll (made_eq_ok made)
  · intro yaml t path r made
    obtain ⟨entries, read, added⟩ := ofTable_eq_ok made
    obtain ⟨languages, described, registered⟩ := after_addEntries_eq_none added
    obtain ⟨orderly, table⟩ := orderly_of_registerAll registered
    exact ⟨orderly, entries, read, table ▸ described⟩

theorem orderly_after_attempts_standard :
    ∃ r, ofLanguages Language.standard = .ok r ∧ r.Orderly ∧ r.languages = Language.standard := by
  obtain ⟨r, made⟩ : ∃ r, ofLanguages Language.standard = .ok r := ⟨_, rfl⟩
  obtain ⟨_, lists, _⟩ := orderly_after_attempts
  exact ⟨r, made, lists _ r made⟩

/-- The second attempt is refused, and an extension stays with the first that declares it. -/
example :
    let c := Language.withSlashComments 0 "C" [".c", ".h"]
    let calls := [c, .withSlashComments 0 "D" [".d"], .withSlashComments 1 "E" [".h", ".e"]]
    (empty.attemptAll calls).languages.map (·.name) = [Text.ofString "C", Text.ofString "E"] ∧
      (empty.attemptAll calls).detect ".h" = some c ∧
      (empty.attemptAll calls).detect ".d" = none := by
  decide

end Registry

end Bytewise
