import Bytewise.Proofs.Survey.Counting
import Bytewise.Proofs.Survey.Trace

/-!
# What a walk reaches

Which files a walk comes to count is described here by the tree alone. `Surveyor.Wanted` says which
regular files a walk is after: those that are not passed over, neither they nor a directory above
them. Such a file is `Surveyor.Visible` if every directory on the way can be listed and searched,
and these are the files that a walk counts, as long as no name on the way is too long
(`Ends.visible`, `Visible.ends`). A name that is too long for the walk is too long for the file to
be opened (`Visible.fits_of_length_le`), so the files that can be read are reached exactly if they
are visible.
-/

namespace Bytewise

/-! ## Nodes that paths lead to -/

namespace FileTree

variable {t : FileTree} {links : Nat} {trail trail' : List (Text × Node)} {todo : List Text}
  {text : Text} {node : Node}

theorem wellFormed_reached (wellFormed : t.WellFormed)
    (passed : ∀ e ∈ trail, e.2.WellFormed) : (reached t trail).WellFormed := by
  cases trail with
  | nil => exact wellFormed
  | cons last outer => exact passed last List.mem_cons_self

/-- Following a name never leaves the nodes of the tree. -/
theorem wellFormed_of_walk (wellFormed : t.WellFormed) (passed : ∀ e ∈ trail, e.2.WellFormed)
    (arrives : walk t links trail todo = .ok trail') : ∀ e ∈ trail', e.2.WellFormed := by
  replace arrives := leads_of_follow arrives
  induction arrives with
  | arrived links trail => exact passed
  | empty here next ih => exact ih passed
  | dot here next ih => exact ih passed
  | dots here next ih => exact ih fun e member => passed e (List.mem_cons_of_mem _ member)
  | link asked relative next ih => exact ih passed
  | name asked plain next ih =>
      refine ih fun e member => ?_
      obtain rfl | member := List.mem_cons.mp member
      · obtain ⟨access, entries, here, _, found⟩ := asked.directory
        have inner := wellFormed_reached wellFormed passed
        rw [here] at inner
        exact inner.inside (mem_of_lookup found)
      · exact passed e member
  | missing _ made => cases made

theorem wellFormed_of_find (wellFormed : t.WellFormed) (found : t.find text = .ok node) :
    node.WellFormed := by
  obtain ⟨_, _, _, _, trail, walked, rfl⟩ := find_eq_ok_iff.mp found
  exact wellFormed_reached wellFormed
    (wellFormed_of_walk wellFormed (by simp) walked)

end FileTree

/-! ## Treatments -/

namespace Surveyor

variable {s : Surveyor} {t : FileTree} {path : Path} {relative place : List Text}
  {access : Access} {name : Text} {node : Node}

theorem refusal?_eq_none_iff :
    refusal? path access name = none ↔
      (askedName path name).encode.length ≤ FileTree.nameLimit ∧ access.search = true := by
  rw [refusal?]
  split
  next long => simp [Nat.not_le.mpr long]
  next short =>
    cases search : access.search <;> simp [Nat.not_lt.mp short]

theorem treatment_of_refused {cause : SystemFault}
    (refused : refusal? path access name = some cause) :
    s.treatment path relative access name node = .unreachable cause := by
  rw [treatment.eq_def, refused]

theorem treatment_eq_entered_iff :
    s.treatment path relative access name node = .entered ↔
      refusal? path access name = none ∧ s.passesOver relative name true = false ∧
        ∃ access' entries, node = .directory access' entries := by
  rw [treatment.eq_def]
  cases refusal? path access name with
  | some cause => simp
  | none =>
      cases node with
      | directory => cases kept : s.passesOver relative name true <;> simp [Node.isDirectory, kept]
      | _ => cases kept : s.passesOver relative name false <;> simp [Node.isDirectory, kept]

theorem treatment_eq_counted_iff :
    s.treatment path relative access name node = .counted ↔
      refusal? path access name = none ∧ s.passesOver relative name false = false ∧
        ∃ access' data, node = .file access' data := by
  rw [treatment.eq_def]
  cases refusal? path access name with
  | some cause => simp
  | none =>
      cases node with
      | directory => cases kept : s.passesOver relative name true <;> simp [Node.isDirectory, kept]
      | _ => cases kept : s.passesOver relative name false <;> simp [Node.isDirectory, kept]

/-! ## Files that a walk is after -/

/-- A fact about every name on the way to a place, one name at a time. -/
theorem forall_split_cons {P : List Text → Text → List Text → Prop} {rest : List Text} :
    (∀ above next below, name :: rest = above ++ next :: below → P above next below) ↔
      P [] name rest ∧
        ∀ above next below, rest = above ++ next :: below → P (name :: above) next below := by
  constructor
  · intro all
    exact ⟨all [] name rest rfl, fun above next below split =>
      all (name :: above) next below (by rw [split, List.cons_append])⟩
  · rintro ⟨first, later⟩ above next below split
    cases above with
    | nil =>
        cases split
        exact first
    | cons first' above =>
        cases split
        exact later above next below rfl

/-- A regular file below a node, at a place that is reached through directories only, where no name
on the way is passed over. -/
structure Wanted (s : Surveyor) (relative : List Text) (node : Node) (place : List Text) :
    Prop where
  regular : ∃ access data, node.at? place = some (.file access data)
  unignored : ∀ above name below, place = above ++ name :: below →
    s.passesOver (relative ++ above) name (!below.isEmpty) = false

/-- A regular file that a walk is after, and every directory on the way to it can be listed and
searched. -/
structure Visible (s : Surveyor) (relative : List Text) (node : Node) (place : List Text) : Prop
    extends s.Wanted relative node place where
  opened : ∀ above name below, place = above ++ name :: below →
    ∃ access entries, node.at? above = some (.directory access entries) ∧
      access.read = true ∧ access.search = true

/-- No name that the system is asked about on the way to a place is too long. -/
def Fits (path : Path) (place : List Text) : Prop :=
  ∀ above name below, place = above ++ name :: below →
    (askedName (path.below above) name).encode.length ≤ FileTree.nameLimit

variable {rest : List Text} {entries : List (Text × Node)}

theorem wanted_nil_iff :
    s.Wanted relative node [] ↔ ∃ access data, node = .file access data := by
  constructor
  · rintro ⟨⟨access, data, found⟩, _⟩
    exact ⟨access, data, by simpa using found⟩
  · rintro ⟨access, data, rfl⟩
    exact ⟨⟨access, data, by simp⟩, by simp⟩

/-- What is above a file is a directory. -/
theorem Wanted.exists_directory (wanted : s.Wanted relative node (name :: rest)) :
    ∃ access entries, node = .directory access entries := by
  obtain ⟨_, _, found⟩ := wanted.regular
  obtain ⟨access, entries, _, same, _, _⟩ := Node.at?_cons_eq_some_iff.mp found
  exact ⟨access, entries, same⟩

theorem wanted_cons_iff (wellFormed : (Node.directory access entries).WellFormed) :
    s.Wanted relative (.directory access entries) (name :: rest) ↔
      s.passesOver relative name (!rest.isEmpty) = false ∧
        ∃ node, (name, node) ∈ entries ∧ s.Wanted (relative ++ [name]) node rest := by
  constructor
  · rintro ⟨⟨access', data, found⟩, unignored⟩
    obtain ⟨_, _, node, same, entry, inside⟩ := Node.at?_cons_eq_some_iff.mp found
    cases same
    obtain ⟨first, later⟩ := forall_split_cons.mp unignored
    refine ⟨by simpa using first, node, FileTree.mem_of_lookup entry, ⟨access', data, inside⟩, ?_⟩
    simpa using later
  · rintro ⟨kept, node, member, ⟨access', data, inside⟩, unignored⟩
    refine ⟨⟨access', data, ?_⟩, forall_split_cons.mpr ⟨by simpa using kept, ?_⟩⟩
    · rw [wellFormed.at?_cons member, inside]
    · simpa using unignored

theorem visible_nil_iff :
    s.Visible relative node [] ↔ ∃ access data, node = .file access data := by
  constructor
  · intro visible
    exact wanted_nil_iff.mp visible.toWanted
  · intro isFile
    exact ⟨wanted_nil_iff.mpr isFile, by simp⟩

theorem visible_cons_iff (wellFormed : (Node.directory access entries).WellFormed) :
    s.Visible relative (.directory access entries) (name :: rest) ↔
      access.read = true ∧ access.search = true ∧
        s.passesOver relative name (!rest.isEmpty) = false ∧
        ∃ node, (name, node) ∈ entries ∧ s.Visible (relative ++ [name]) node rest := by
  constructor
  · rintro ⟨wanted, opened⟩
    obtain ⟨kept, node, member, inside⟩ := (wanted_cons_iff wellFormed).mp wanted
    obtain ⟨⟨_, _, here, read, search⟩, later⟩ := forall_split_cons.mp opened
    cases here
    refine ⟨read, search, kept, node, member, inside, fun above next below split => ?_⟩
    have higher := later above next below split
    rwa [wellFormed.at?_cons member] at higher
  · rintro ⟨read, search, kept, node, member, inside, opened⟩
    refine ⟨(wanted_cons_iff wellFormed).mpr ⟨kept, node, member, inside⟩, ?_⟩
    refine forall_split_cons.mpr ⟨⟨access, entries, by simp, read, search⟩, ?_⟩
    intro above next below split
    rw [wellFormed.at?_cons member]
    exact opened above next below split

theorem fits_cons_iff :
    Fits path (name :: rest) ↔
      (askedName path name).encode.length ≤ FileTree.nameLimit ∧ Fits (path.child name) rest := by
  simp only [Fits, Path.below_child]
  exact (forall_split_cons
    (P := fun above next _ => (askedName (path.below above) next).encode.length ≤
      FileTree.nameLimit)).trans (by rw [Path.below_nil])

/-! ## Files that a walk counts -/

/-- A file that a walk counts is visible, and no name on the way is too long. -/
theorem Ends.visible (wellFormed : node.WellFormed)
    (ends : s.Ends path relative node place (.met .counted)) :
    s.Visible relative node place ∧ Fits path place := by
  generalize counts : Ending.met .counted = ending at ends
  induction ends with
  | unlisted => cases counts
  | @met path relative access entries name node listed member stays =>
      have treated := (Ending.met.inj counts).symm
      obtain ⟨admitted, kept, isFile⟩ := treatment_eq_counted_iff.mp treated
      obtain ⟨short, search⟩ := refusal?_eq_none_iff.mp admitted
      have visible : s.Visible (relative ++ [name]) node [] := visible_nil_iff.mpr isFile
      rw [visible_cons_iff wellFormed, fits_cons_iff]
      exact ⟨⟨listed, search, kept, node, member, visible⟩, short, by simp [Fits]⟩
  | @inside path relative access entries name node rest ending listed member enters _ ih =>
      obtain ⟨admitted, kept, _, _, rfl⟩ := treatment_eq_entered_iff.mp enters
      obtain ⟨short, search⟩ := refusal?_eq_none_iff.mp admitted
      obtain ⟨visible, fits⟩ := ih (wellFormed.inside member) counts
      have further : rest ≠ [] := by
        rintro rfl
        obtain ⟨_, _, same⟩ := visible_nil_iff.mp visible
        cases same
      rw [visible_cons_iff wellFormed, fits_cons_iff, List.isEmpty_eq_false_iff.mpr further]
      exact ⟨⟨listed, search, kept, _, member, visible⟩, short, fits⟩

/-- A walk comes to every visible file, if no name on the way is too long, and counts it. -/
theorem Visible.ends (wellFormed : (Node.directory access entries).WellFormed)
    (visible : s.Visible relative (.directory access entries) place) (fits : Fits path place) :
    s.Ends path relative (.directory access entries) place (.met .counted) := by
  induction place generalizing path relative access entries with
  | nil =>
      obtain ⟨_, _, same⟩ := visible_nil_iff.mp visible
      cases same
  | cons name rest ih =>
      obtain ⟨listed, search, kept, node, member, visible⟩ :=
        (visible_cons_iff wellFormed).mp visible
      obtain ⟨short, fits⟩ := fits_cons_iff.mp fits
      have admitted := refusal?_eq_none_iff.mpr ⟨short, search⟩
      cases rest with
      | nil =>
          obtain ⟨access', data, rfl⟩ := visible_nil_iff.mp visible
          have treated := treatment_eq_counted_iff.mpr ⟨admitted, kept, access', data, rfl⟩
          exact .met_of_eq listed member treated nofun
      | cons next rest =>
          obtain ⟨access', entries', rfl⟩ := visible.toWanted.exists_directory
          have enters := treatment_eq_entered_iff.mpr ⟨admitted, kept, access', entries', rfl⟩
          exact .inside listed member enters (ih (wellFormed.inside member) visible fits)

/-! ## What is found at the ends -/

namespace Ending

variable {ending : Ending}

/-- At the end of a branch where a file is counted there is what counting the file comes to. -/
theorem survey_counted (nonempty : path.parts ≠ []) :
    (Ending.met .counted).survey s t path =
      (s.countFile t path.toText).fresh.metSurvey path.toText := by
  have same : path.parent.child path.name = path := by
    obtain ⟨absolute, parts⟩ := path
    simpa [Path.parent, Path.child, Path.name, List.getLast?_eq_some_getLast nonempty] using
      List.dropLast_concat_getLast nonempty
  simp only [survey, meet, same, visitFile, Work.fresh_map]

theorem counted_survey_of_ne (other : ending ≠ .met .counted) :
    (ending.survey s t path).counted = [] := by
  cases ending with
  | unlisted => rfl
  | met treatment =>
      cases treatment with
      | counted => exact absurd rfl other
      | _ => rfl

theorem stopped_survey_of_ne (other : ending ≠ .met .counted) :
    (ending.survey s t path).stopped = none := by
  cases ending with
  | unlisted => rfl
  | met treatment =>
      cases treatment with
      | counted => exact absurd rfl other
      | _ => rfl

theorem failures_survey_unlisted :
    (Ending.unlisted.survey s t path).failures = [(path.toText, SystemFault.denied.reason)] := rfl

theorem failures_survey_of_ne {treatment : Treatment} (other : treatment ≠ .counted) :
    ((Ending.met treatment).survey s t path).failures = [] := by
  cases treatment with
  | counted => exact absurd rfl other
  | _ => rfl

end Ending

/-- The survey of a directory is what is found at the ends of the walk through it. -/
theorem traces_scan (wellFormed : t.WellFormed)
    (found : t.find path.toText = .ok (.directory access entries)) :
    Traces s t path (s.scan t path).fresh (s.Ends path [] (.directory access entries)) := by
  rw [scan, found]
  exact traces_walk (FileTree.wellFormed_of_find wellFormed found) path []

/-! ## Opening the files -/

/-- The system is asked about an entry by the text of its path, except that an entry of the working
directory has a dot and a slash before it; that cannot make it too long. -/
theorem askedName_fits_iff (relative : path.absolute = false) (normal : path.Normal)
    (isName : IsName name) :
    (askedName path name).encode.length ≤ FileTree.nameLimit ↔
      (path.child name).toText.encode.length ≤ FileTree.nameLimit := by
  rw [Path.toText_child relative normal isName]
  by_cases empty : path.parts = []
  · have short := isName.short
    have asked : (askedName path name).encode.length = 2 + name.encode.length := by
      have text : path.toText = Text.ofString "." := by
        simp [Path.toText, relative, empty, Text.join]
      rw [askedName, text]
      simp only [Text.encode, List.flatMap_append, List.flatMap_cons, List.length_append]
      have dot : (List.flatMap Symbol.encode (Text.ofString ".")).length = 1 := by decide
      have slash : Path.slash.encode.length = 1 := by decide
      omega
    rw [if_pos empty, asked]
    simp only [FileTree.partLimit, FileTree.nameLimit] at short ⊢
    omega
  · rw [if_neg empty, askedName]

/-- Visible files are found under their paths, as long as no name on the way is too long. -/
theorem Visible.find_eq (visible : s.Visible relative node place) (fits : Fits path place)
    (wellFormed : node.WellFormed) (normal : path.Normal)
    (found : t.find path.toText = .ok node) :
    ∃ access data, t.find (path.below place).toText = .ok (.file access data) := by
  induction place generalizing path relative node with
  | nil =>
      obtain ⟨access, data, rfl⟩ := visible_nil_iff.mp visible
      exact ⟨access, data, by simpa using found⟩
  | cons name rest ih =>
      obtain ⟨access, entries, rfl⟩ := visible.toWanted.exists_directory
      obtain ⟨_, search, _, node, member, visible⟩ := (visible_cons_iff wellFormed).mp visible
      obtain ⟨short, fits⟩ := fits_cons_iff.mp fits
      have isName := wellFormed.isName member
      have plain : ∀ target, node ≠ .link target := by
        rintro target rfl
        obtain ⟨_, _, regular⟩ := visible.regular
        cases rest <;> cases regular
      have here := FileTree.find_child normal found search isName
        (wellFormed.lookup_eq_some_iff.mpr member) plain
        ((askedName_fits_iff (FileTree.relative_of_find found) normal isName).mp short)
      have inside := ih visible fits (wellFormed.inside member) (normal.child isName) here
      rwa [Path.below_child] at inside

/-- If the path of a visible file is not too long, no name on the way is. -/
theorem Visible.fits_of_length_le (visible : s.Visible relative node place)
    (wellFormed : node.WellFormed) (normal : path.Normal) (isRelative : path.absolute = false)
    (short : (path.below place).toText.encode.length ≤ FileTree.nameLimit) : Fits path place := by
  induction place generalizing path relative node with
  | nil => simp [Fits]
  | cons name rest ih =>
      obtain ⟨_, _, regular⟩ := visible.regular
      obtain ⟨isName, areNames⟩ := List.forall_mem_cons.mp (wellFormed.isName_of_at? regular)
      obtain ⟨access, entries, rfl⟩ := visible.toWanted.exists_directory
      obtain ⟨_, _, _, node, member, visible⟩ := (visible_cons_iff wellFormed).mp visible
      have inner := normal.child isName
      have longer : (path.child name).toText <+: (path.below (name :: rest)).toText := by
        rw [← Path.below_child, Path.toText_of_relative (p := path.child name) isRelative inner
            (by simp [Path.child]),
          Path.toText_of_relative (p := (path.child name).below rest) isRelative
            (inner.below areNames) (by simp [Path.child, Path.below])]
        exact Text.join_isPrefix (by simp [Path.child]) _ _
      refine fits_cons_iff.mpr ⟨(askedName_fits_iff isRelative normal isName).mpr ?_, ?_⟩
      · obtain ⟨more, same⟩ := longer
        rw [← same] at short
        simp only [Text.encode, List.flatMap_append, List.length_append] at short ⊢
        omega
      · rw [← Path.below_child] at short
        exact ih visible (wellFormed.inside member) inner isRelative short

end Surveyor

end Bytewise
