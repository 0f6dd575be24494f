import Mathlib.Data.String.Basic
import Mathlib.Data.List.Sort
import RunTimings.Proofs.ByteOrder
import RunTimings.Proofs.DistinctLogs

/-! # Discovered files — what a dataset depends on

    A directory is listed in any order, and lists more than the logs.  The files of
    a run are found among what is listed by their names alone, and come in the
    order of the bytes of these.

    * `FileNamed` — a regular file of a name that is text is listed.
    * `fileNames_inOrder`, `mem_fileNames_iff` — the names are in order, and are
      those of the files that are listed.
    * `StepDataset.FoundIn`, `CycleDataset.FoundIn` — what a dataset has to be, told
      by the names that are listed; there is at most one
      (`StepDataset.FoundIn.unique`, `CycleDataset.FoundIn.unique`).
    * **`datasets_by_name`** — the datasets found are those, and neither the order
      of a listing nor anything in it but the files of a run is of account. -/

namespace RunTimings

open RunTimings.Text

/-! ## Names -/

/-- One name comes before another by its bytes. -/
def BytesBefore (name other : String) : Prop :=
  Utf8.encode name.toList < Utf8.encode other.toList

theorem bytesBefore_iff {name other : String} : BytesBefore name other ↔ name < other :=
  Utf8.encode_lt_encode_iff.trans String.lt_iff_toList_lt.symm

/-- A regular file with this name is listed. -/
def FileNamed (entries : List DirectoryEntry) (name : String) : Prop :=
  ∃ entry ∈ entries, entry.regular = true ∧ entry.name = Utf8.encode name.toList

theorem DirectoryEntry.text?_eq_some_iff {entry : DirectoryEntry} {name : String} :
    entry.text? = some name ↔ entry.name = Utf8.encode name.toList := by
  refine ⟨DirectoryEntry.name_of_text?, fun h => ?_⟩
  simp only [DirectoryEntry.text?]
  rw [Utf8.decode?_eq_some_iff.mpr h, Option.map_some, String.ofList_toList]

/-- **THE NAMES** of a listing are those of the files that it lists. -/
theorem mem_fileNames_iff {entries : List DirectoryEntry} {name : String} :
    name ∈ fileNames entries ↔ FileNamed entries name := by
  rw [mem_fileNames]
  simp only [DirectoryEntry.text?_eq_some_iff]
  rfl

/-- **IN ORDER**: if nothing is listed twice, each name comes before the next. -/
theorem fileNames_inOrder {entries : List DirectoryEntry}
    (hdistinct : (entries.map (·.name)).Nodup) : (fileNames entries).Pairwise BytesBefore := by
  have hsorted : (fileNames entries).Pairwise fun name other => decide (name ≤ other) = true :=
    List.pairwise_mergeSort (fun a b c => by simpa using le_trans)
      (fun a b => by simpa using le_total a b) _
  refine (hsorted.and (nodup_fileNames hdistinct)).imp ?_
  rintro name other ⟨hle, hne⟩
  exact bytesBefore_iff.mpr (lt_of_le_of_ne (of_decide_eq_true hle) hne)

/-- The first of some names in order that has a property is the least that has it. -/
theorem least_of_find? {names : List String} (hordered : names.Pairwise BytesBefore)
    {p : String → Bool} {name : String} (hfind : names.find? p = some name) {other : String}
    (hmem : other ∈ names) (hother : p other = true) : other = name ∨ BytesBefore name other := by
  obtain ⟨-, before, after, rfl, hbefore⟩ := List.find?_eq_some_iff_append.mp hfind
  rcases List.mem_append.mp hmem with hearlier | hlater
  · have hnot := hbefore other hearlier
    rw [hother] at hnot
    cases hnot
  · rcases List.mem_cons.mp hlater with heq | hafter
    · exact .inl heq
    · have hrest := (List.pairwise_append.mp hordered).2.1
      exact .inr ((List.pairwise_cons.mp hrest).1 other hafter)

/-! ## Names with a property -/

/-- The names that have a property, all of them, in order. -/
structure AllInOrder (property : String → Prop) (names : List String) : Prop where
  ordered : names.Pairwise BytesBefore
  all : ∀ name, name ∈ names ↔ property name

/-- The least name that has a property. -/
structure LeastName (property : String → Prop) (name : String) : Prop where
  holds : property name
  least : ∀ other, property other → other = name ∨ BytesBefore name other

theorem AllInOrder.unique {property : String → Prop} {names other : List String}
    (h : AllInOrder property names) (hother : AllInOrder property other) : names = other := by
  have hordered : ∀ {names : List String}, names.Pairwise BytesBefore → names.Pairwise (· < ·) :=
    fun h => h.imp bytesBefore_iff.mp
  exact (hordered h.ordered).eq_of_mem_iff (hordered hother.ordered)
    fun name => (h.all name).trans (hother.all name).symm

theorem LeastName.unique {property : String → Prop} {name other : String}
    (h : LeastName property name) (hother : LeastName property other) : name = other := by
  rcases h.least other hother.holds with heq | hlt
  · exact heq.symm
  · rcases hother.least name h.holds with heq | hgt
    · exact heq
    · exact absurd (bytesBefore_iff.mp hlt) (lt_asymm (bytesBefore_iff.mp hgt))

theorem AllInOrder.congr {property property' : String → Prop} {names : List String}
    (h : AllInOrder property names) (hsame : ∀ name, property name ↔ property' name) :
    AllInOrder property' names :=
  ⟨h.ordered, fun name => (h.all name).trans (hsame name)⟩

theorem LeastName.congr {property property' : String → Prop} {name : String}
    (h : LeastName property name) (hsame : ∀ name, property name ↔ property' name) :
    LeastName property' name :=
  ⟨(hsame name).mp h.holds, fun other hother => h.least other ((hsame other).mpr hother)⟩

/-- The files of a listing whose names pass a check. -/
theorem allInOrder_filter {entries : List DirectoryEntry}
    (hdistinct : (entries.map (·.name)).Nodup) {check : String → Bool} {property : String → Prop}
    (hcheck : ∀ name, check name = true ↔ property name) :
    AllInOrder (fun name => FileNamed entries name ∧ property name)
      ((fileNames entries).filter check) where
  ordered := (fileNames_inOrder hdistinct).filter check
  all := by
    intro name
    rw [List.mem_filter, mem_fileNames_iff, hcheck]

/-! ## The names of logs -/

/-- The name of an asker's log of steps: it starts with `steps_`. -/
def NamesAsker (name : String) : Prop :=
  "steps_".toList <+: name.toList

/-- The name of a participant's log of steps: one character, whatever it is. -/
def NamesOne (name : String) : Prop :=
  ∃ c : Char, name.toList = [c]

/-- The name of a participant's log of cycles: ASCII digits, and at least one. -/
def NamesNumber (name : String) : Prop :=
  name.toList ≠ [] ∧ ∀ c ∈ name.toList, '0' ≤ c ∧ c ≤ '9'

theorem isStepAsker_iff (name : String) : isStepAsker name = true ↔ NamesAsker name :=
  List.isPrefixOf_iff_prefix

theorem isStepParticipant_iff (name : String) : isStepParticipant name = true ↔ NamesOne name := by
  simp only [isStepParticipant, NamesOne, decide_eq_true_eq]
  rw [← String.length_toList, List.length_eq_one_iff]

theorem isCycleParticipant_iff (name : String) :
    isCycleParticipant name = true ↔ NamesNumber name := by
  have hdigit : ∀ c : Char, c.isDigit = true ↔ '0' ≤ c ∧ c ≤ '9' := by
    intro c
    simp only [Char.isDigit, Bool.and_eq_true, decide_eq_true_eq, Char.le_def]
  simp only [isCycleParticipant, NamesNumber, decide_eq_true_eq, List.all_eq_true, hdigit]
  rw [ne_eq, ne_eq, ← String.toList_inj, String.toList_empty]

/-! ## Datasets -/

/-- The files of a step run, told by the names that its directory lists. -/
inductive StepDataset.FoundIn (directory : String) (entries : List DirectoryEntry) :
    StepDataset → Prop
  | intro (asker : String) (names : List String)
      (least : LeastName (fun name => FileNamed entries name ∧ NamesAsker name) asker)
      (all : AllInOrder (fun name => FileNamed entries name ∧ NamesOne name) names) :
      FoundIn directory entries ⟨joinPath directory asker, names.map (joinPath directory)⟩

/-- The files of a cycle run, told by the names that the directory of its
    participants lists. -/
inductive CycleDataset.FoundIn (dataDirectory peerDirectory asker : String) (cycles : Nat)
    (entries : List DirectoryEntry) : CycleDataset → Prop
  | intro (names : List String)
      (all : AllInOrder (fun name => FileNamed entries name ∧ NamesNumber name) names) :
      FoundIn dataDirectory peerDirectory asker cycles entries
        ⟨joinPath dataDirectory asker, names.map (joinPath peerDirectory), peerDirectory, cycles⟩

theorem StepDataset.FoundIn.unique {directory : String} {entries : List DirectoryEntry}
    {dataset other : StepDataset} (h : dataset.FoundIn directory entries)
    (hother : other.FoundIn directory entries) : dataset = other := by
  obtain ⟨asker, names, hleast, hall⟩ := h
  obtain ⟨asker', names', hleast', hall'⟩ := hother
  rw [hleast.unique hleast', hall.unique hall']

theorem CycleDataset.FoundIn.unique {dataDirectory peerDirectory asker : String} {cycles : Nat}
    {entries : List DirectoryEntry} {dataset other : CycleDataset}
    (h : dataset.FoundIn dataDirectory peerDirectory asker cycles entries)
    (hother : other.FoundIn dataDirectory peerDirectory asker cycles entries) :
    dataset = other := by
  obtain ⟨names, hall⟩ := h
  obtain ⟨names', hall'⟩ := hother
  rw [hall.unique hall']

/-- Listings of the same files of step runs have the same dataset. -/
theorem StepDataset.FoundIn.congr {directory : String} {entries other : List DirectoryEntry}
    {dataset : StepDataset} (h : dataset.FoundIn directory entries)
    (hsame : ∀ name, NamesAsker name ∨ NamesOne name →
      (FileNamed entries name ↔ FileNamed other name)) : dataset.FoundIn directory other := by
  obtain ⟨asker, names, hleast, hall⟩ := h
  refine ⟨asker, names, hleast.congr fun name => ?_, hall.congr fun name => ?_⟩
  · exact and_congr_left fun hname => hsame name (.inl hname)
  · exact and_congr_left fun hname => hsame name (.inr hname)

/-- Listings of the same files of cycle runs have the same dataset. -/
theorem CycleDataset.FoundIn.congr {dataDirectory peerDirectory asker : String} {cycles : Nat}
    {entries other : List DirectoryEntry} {dataset : CycleDataset}
    (h : dataset.FoundIn dataDirectory peerDirectory asker cycles entries)
    (hsame : ∀ name, NamesNumber name → (FileNamed entries name ↔ FileNamed other name)) :
    dataset.FoundIn dataDirectory peerDirectory asker cycles other := by
  obtain ⟨names, hall⟩ := h
  exact ⟨names, hall.congr fun name => and_congr_left fun hname => hsame name hname⟩

/-- What comes of looking for the files of a step run in a directory. -/
theorem outcome_discover_steps {files : FileView} {directory : String}
    {entries : List DirectoryEntry} (hlist : files.list directory = .ok entries) :
    (StepDataset.discover files directory).outcome
      = StepDataset.ofNames directory (fileNames entries) := by
  simp only [StepDataset.discover, listFileNames]
  rw [hlist]
  rfl

/-- There is a dataset exactly if there is an asker, and then it is the one that
    the names tell. -/
theorem discover_steps_iff {files : FileView} {directory : String}
    {entries : List DirectoryEntry} (hlist : files.list directory = .ok entries)
    (hdistinct : (entries.map (·.name)).Nodup) :
    ((StepDataset.discover files directory).outcome = .error (.noAsker directory)
        ∧ ¬ ∃ name, FileNamed entries name ∧ NamesAsker name)
      ∨ ∃ dataset, (StepDataset.discover files directory).outcome = .ok dataset
        ∧ dataset.FoundIn directory entries := by
  rw [outcome_discover_steps hlist]
  simp only [StepDataset.ofNames]
  cases hfind : (fileNames entries).find? isStepAsker with
  | none =>
      refine .inl ⟨rfl, ?_⟩
      rintro ⟨name, hnamed, hasker⟩
      refine List.find?_eq_none.mp hfind name (mem_fileNames_iff.mpr hnamed) ?_
      exact (isStepAsker_iff name).mpr hasker
  | some asker =>
      refine .inr ⟨_, rfl, asker, _, ⟨⟨?_, ?_⟩, ?_⟩, ?_⟩
      · exact mem_fileNames_iff.mp (List.mem_of_find?_eq_some hfind)
      · exact (isStepAsker_iff asker).mp (List.find?_some hfind)
      · rintro other ⟨hnamed, hasker⟩
        exact least_of_find? (fileNames_inOrder hdistinct) hfind (mem_fileNames_iff.mpr hnamed)
          ((isStepAsker_iff other).mpr hasker)
      · exact allInOrder_filter hdistinct isStepParticipant_iff

/-- A run with at least one cycle has the dataset that the names tell. -/
theorem discover_cycles_foundIn {files : FileView} {directory : String}
    {entries : List DirectoryEntry} (hlist : files.list directory = .ok entries)
    (hdistinct : (entries.map (·.name)).Nodup) (dataDirectory asker : String) {cycles : Nat}
    (hsome : 1 ≤ cycles) :
    ∃ dataset,
      (CycleDataset.discover files dataDirectory directory asker cycles).outcome = .ok dataset
        ∧ dataset.FoundIn dataDirectory directory asker cycles entries :=
  ⟨_, discover_eq_ok_iff.mpr ⟨Nat.one_le_iff_ne_zero.mp hsome, entries, hlist, rfl⟩,
    _, allInOrder_filter hdistinct isCycleParticipant_iff⟩

/-- Listings of the same files with names of logs of a step run have the same dataset,
    or none. -/
theorem discover_steps_congr {files other : FileView} {directory : String}
    {entries listed : List DirectoryEntry} (hlist : files.list directory = .ok entries)
    (hother : other.list directory = .ok listed) (hdistinct : (entries.map (·.name)).Nodup)
    (hdistinct' : (listed.map (·.name)).Nodup)
    (hsame : ∀ name, NamesAsker name ∨ NamesOne name →
      (FileNamed entries name ↔ FileNamed listed name)) :
    (StepDataset.discover other directory).outcome
      = (StepDataset.discover files directory).outcome := by
  have hasker : ∀ name, (FileNamed entries name ∧ NamesAsker name)
      ↔ FileNamed listed name ∧ NamesAsker name :=
    fun name => and_congr_left fun hname => hsame name (.inl hname)
  rcases discover_steps_iff hlist hdistinct with ⟨herror, hnone⟩ | ⟨dataset, hok, hfound⟩ <;>
    rcases discover_steps_iff hother hdistinct' with ⟨herror', hnone'⟩ | ⟨dataset', hok', hfound'⟩
  · rw [herror, herror']
  · obtain ⟨asker, -, hleast, -⟩ := hfound'
    exact absurd ⟨asker, (hasker asker).mpr hleast.holds⟩ hnone
  · obtain ⟨asker, -, hleast, -⟩ := hfound
    exact absurd ⟨asker, (hasker asker).mp hleast.holds⟩ hnone'
  · rw [hok, hok', (hfound.congr hsame).unique hfound']

/-- Listings of the same files with names of logs of a cycle run have the same
    dataset, or none. -/
theorem discover_cycles_congr {files other : FileView} {directory : String}
    {entries listed : List DirectoryEntry} (hlist : files.list directory = .ok entries)
    (hother : other.list directory = .ok listed) (hdistinct : (entries.map (·.name)).Nodup)
    (hdistinct' : (listed.map (·.name)).Nodup)
    (hsame : ∀ name, NamesNumber name → (FileNamed entries name ↔ FileNamed listed name))
    (dataDirectory asker : String) (cycles : Nat) :
    (CycleDataset.discover other dataDirectory directory asker cycles).outcome
      = (CycleDataset.discover files dataDirectory directory asker cycles).outcome := by
  by_cases hnone : cycles = 0
  · -- without a cycle nothing is looked for
    subst hnone
    rfl
  · have hsome := Nat.one_le_iff_ne_zero.mpr hnone
    obtain ⟨dataset, hok, hfound⟩ :=
      discover_cycles_foundIn hlist hdistinct dataDirectory asker hsome
    obtain ⟨dataset', hok', hfound'⟩ :=
      discover_cycles_foundIn hother hdistinct' dataDirectory asker hsome
    rw [hok, hok', (hfound.congr hsame).unique hfound']

/-- **BY NAME**: a directory without an asker's log is no step run; otherwise its
    asker is the least of those names and its participants are all files named by
    one character, in order.  The participants of a cycle run are all files named
    by digits, in order.  And another listing, in any order and with any other
    entries, gives the same dataset, or none, if it has the same files with names
    of logs. -/
theorem datasets_by_name (files : FileView) (directory : String) (entries : List DirectoryEntry)
    (hlist : files.list directory = .ok entries) (hdistinct : (entries.map (·.name)).Nodup) :
    ((StepDataset.discover files directory).outcome = .error (.noAsker directory)
        ↔ ¬ ∃ name, FileNamed entries name ∧ NamesAsker name)
      ∧ ((∃ name, FileNamed entries name ∧ NamesAsker name) →
        ∃ dataset, (StepDataset.discover files directory).outcome = .ok dataset
          ∧ dataset.FoundIn directory entries)
      ∧ (∀ (dataDirectory asker : String) (cycles : Nat), 1 ≤ cycles → ∃ dataset,
        (CycleDataset.discover files dataDirectory directory asker cycles).outcome = .ok dataset
          ∧ dataset.FoundIn dataDirectory directory asker cycles entries)
      ∧ ∀ (other : FileView) (listed : List DirectoryEntry), other.list directory = .ok listed →
        (listed.map (·.name)).Nodup →
        ((∀ name, NamesAsker name ∨ NamesOne name →
            (FileNamed entries name ↔ FileNamed listed name)) →
          (StepDataset.discover other directory).outcome
            = (StepDataset.discover files directory).outcome)
        ∧ ((∀ name, NamesNumber name → (FileNamed entries name ↔ FileNamed listed name)) →
          ∀ (dataDirectory asker : String) (cycles : Nat),
            (CycleDataset.discover other dataDirectory directory asker cycles).outcome
              = (CycleDataset.discover files dataDirectory directory asker cycles).outcome) := by
  have hsteps := discover_steps_iff hlist hdistinct
  refine ⟨⟨?_, ?_⟩, ?_, ?_, ?_⟩
  · intro herror
    rcases hsteps with ⟨-, hnone⟩ | ⟨dataset, hok, -⟩
    · exact hnone
    · rw [herror] at hok
      cases hok
  · intro hnone
    rcases hsteps with ⟨herror, -⟩ | ⟨dataset, -, ⟨asker, -, hleast, -⟩⟩
    · exact herror
    · exact absurd ⟨asker, hleast.holds⟩ hnone
  · intro hsome
    rcases hsteps with ⟨-, hnone⟩ | hfound
    · exact absurd hsome hnone
    · exact hfound
  · intro dataDirectory asker cycles hsome
    exact discover_cycles_foundIn hlist hdistinct dataDirectory asker hsome
  · intro other listed hother hdistinct'
    exact ⟨discover_steps_congr hlist hother hdistinct hdistinct',
      discover_cycles_congr hlist hother hdistinct hdistinct'⟩

/-- A directory with these entries, and no file that can be opened. -/
def listingOnly (entries : List DirectoryEntry) : FileView :=
  ⟨fun _ => .ok entries, fun _ => .error .notFound⟩

/-- The logs of a step run, one of them of no use, in the order of their names. -/
def fourLogs : List DirectoryEntry :=
  [⟨Utf8.encode "b".toList, true⟩, ⟨Utf8.encode "steps_10".toList, true⟩,
    ⟨Utf8.encode "steps_9".toList, true⟩, ⟨Utf8.encode "é".toList, true⟩]

/-- The same logs in another order, among a link, a file whose name is no text and
    a file of another name. -/
def fourLogsAndOthers : List DirectoryEntry :=
  [⟨Utf8.encode "steps_9".toList, true⟩, ⟨[0xff], true⟩, ⟨Utf8.encode "é".toList, true⟩,
    ⟨Utf8.encode "a".toList, false⟩, ⟨Utf8.encode "notes".toList, true⟩,
    ⟨Utf8.encode "b".toList, true⟩, ⟨Utf8.encode "steps_10".toList, true⟩]

/-- A listing names the files that its regular entries with a text for a name name. -/
theorem fileNamed_iff_mem {entries : List DirectoryEntry} {name : String} :
    FileNamed entries name
      ↔ name ∈ (entries.filter (·.regular)).filterMap DirectoryEntry.text? := by
  rw [← mem_fileNames_iff, fileNames, List.mem_mergeSort]

theorem fileNames_fourLogs : fileNames fourLogs = ["b", "steps_10", "steps_9", "é"] := by
  refine (List.mergeSort_of_pairwise ?_).trans ?_
  · decide +kernel
  · decide +kernel

/-- In whatever order the logs are listed, and among whatever else, `steps_10` asks
    and `b` and `é` take part. -/
theorem dataset_of_fourLogs :
    (StepDataset.discover (listingOnly fourLogsAndOthers) "run").outcome
      = .ok ⟨"run/steps_10", ["run/b", "run/é"]⟩ := by
  have hfour : (fourLogs.filter (·.regular)).filterMap DirectoryEntry.text?
      = ["b", "steps_10", "steps_9", "é"] := by decide +kernel
  have hothers : (fourLogsAndOthers.filter (·.regular)).filterMap DirectoryEntry.text?
      = ["steps_9", "é", "notes", "b", "steps_10"] := by decide +kernel
  have hnotes : ¬ (NamesAsker "notes" ∨ NamesOne "notes") := by
    rw [← isStepAsker_iff, ← isStepParticipant_iff]
    decide
  have hsame := ((datasets_by_name (listingOnly fourLogs) "run" fourLogs rfl
    (by decide +kernel)).2.2.2 (listingOnly fourLogsAndOthers) fourLogsAndOthers rfl
      (by decide +kernel)).1
  refine (hsame fun name hname => ?_).trans ?_
  · rw [fileNamed_iff_mem, fileNamed_iff_mem, hfour, hothers]
    have hne : name ≠ "notes" := fun h => hnotes (h ▸ hname)
    simp only [List.mem_cons, List.not_mem_nil, or_false, hne, false_or]
    tauto
  · rw [outcome_discover_steps rfl, fileNames_fourLogs]
    decide +kernel

end RunTimings
