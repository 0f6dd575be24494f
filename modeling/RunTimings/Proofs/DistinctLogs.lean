import RunTimings.Dataset.Discovery
import RunTimings.Proofs.DirectoryListings
import RunTimings.Proofs.Utf8Texts

/-! # Distinct logs — whether a file is listed twice

    What is listed twice is read twice, and counts as two participants.  Two
    paths can be the same without being written alike, so `SamePath` compares
    them name by name.

    * `samePath_joinPath_iff` — paths of single names are the same only if the
      names are, and the directories.
    * A well-named listing gives different single names (`nodup_fileNames`,
      `WellNamed.singleName`), so the participants are `Apart`; and no name is that
      of an asker of steps and that of a participant (`stepDataset_apart`).
    * In a cycle run the asker's name is free.  `logs_listed_twice_exactly` says
      when the asker is a participant too, and `not_every_asker_is_apart` that it
      can be. -/

namespace RunTimings

open RunTimings.Text

/-! ## Paths -/

/-- Whether a name inside a path leads anywhere else. -/
def Counts (name : List Char) : Prop :=
  name ≠ [] ∧ name ≠ ['.']

instance (name : List Char) : Decidable (Counts name) :=
  inferInstanceAs (Decidable (_ ∧ _))

/-- The names of a path that count when it is compared.  A dot in front of a path
    does, others do not; and no slash does that comes after another or last. -/
def countedNames (path : List Char) : List (List Char) :=
  match pieces '/' path with
  | [] => []
  | first :: rest => (if first = [] then [] else [first]) ++ rest.filter Counts

/-- Two paths are the same: both start at the root or neither, and what counts of
    their names is the same. -/
def SamePath (path other : String) : Prop :=
  isAbsolute path = isAbsolute other ∧ countedNames path.toList = countedNames other.toList

instance (path other : String) : Decidable (SamePath path other) :=
  inferInstanceAs (Decidable (_ ∧ _))

-- slashes and dots that do not count, and a dot that does
example : SamePath "run/1" "run//./1/" ∧ ¬ SamePath "run/1" "./run/1" := by decide +kernel

/-- No two of some paths are the same. -/
def Apart (paths : List String) : Prop :=
  paths.Pairwise fun path other => ¬ SamePath path other

/-- A text that is one name and no more. -/
structure SingleName (name : String) : Prop where
  counts : Counts name.toList
  no_slash : '/' ∉ name.toList

/-- What counts of a path, behind a slash, is what counts of the names there. -/
theorem countedNames_append (path rest : List Char) :
    countedNames (path ++ '/' :: rest) = countedNames path ++ (pieces '/' rest).filter Counts := by
  obtain ⟨first, more, hcut⟩ := List.exists_cons_of_ne_nil (pieces_ne_nil '/' path)
  simp only [countedNames]
  rw [pieces_append_cons, hcut, List.cons_append]
  simp only [List.filter_append, List.append_assoc]

/-- A single name is one piece, and counts. -/
theorem SingleName.filter_pieces {name : String} (h : SingleName name) :
    (pieces '/' name.toList).filter Counts = [name.toList] := by
  rw [pieces_of_not_mem h.no_slash]
  exact List.filter_cons_of_pos (decide_eq_true h.counts)

theorem SingleName.not_absolute {name : String} (h : SingleName name) : isAbsolute name = false := by
  refine decide_eq_false ?_
  intro hhead
  exact h.no_slash (List.mem_of_head? hhead)

/-- Behind a directory comes the name, and nothing else is added. -/
theorem countedNames_joinPath (directory : String) {name : String} (h : SingleName name) :
    countedNames (joinPath directory name).toList
      = countedNames directory.toList ++ [name.toList] := by
  simp only [joinPath, h.not_absolute]
  by_cases hslash : needsSlash directory
  · rw [if_neg Bool.false_ne_true, if_pos hslash, String.toList_append, String.toList_append]
    show countedNames (directory.toList ++ ['/'] ++ name.toList) = _
    rw [List.append_assoc, List.singleton_append, countedNames_append, h.filter_pieces]
  · rw [if_neg Bool.false_ne_true, if_neg hslash, String.toList_append]
    -- without a slash to be added, the directory ends in one or is empty
    cases hlast : directory.toList.getLast? with
    | none =>
        rw [List.getLast?_eq_none_iff.mp hlast]
        show countedNames name.toList = [name.toList]
        simp only [countedNames]
        rw [pieces_of_not_mem h.no_slash]
        exact congrArg (· ++ _) (if_neg h.counts.1)
    | some last =>
        have hend : last = '/' := by
          simpa [needsSlash, hlast] using hslash
        obtain ⟨front, hfront⟩ := List.getLast?_eq_some_iff.mp hlast
        rw [hfront, hend, List.append_assoc, List.singleton_append, countedNames_append,
          countedNames_append, h.filter_pieces]
        exact congrArg (· ++ _) (List.append_nil _).symm

theorem isAbsolute_joinPath (directory : String) {name : String} (h : SingleName name) :
    isAbsolute (joinPath directory name) = isAbsolute directory := by
  simp only [joinPath, h.not_absolute]
  by_cases hslash : needsSlash directory
  · rw [if_neg Bool.false_ne_true, if_pos hslash]
    cases hchars : directory.toList with
    | nil => simp [needsSlash, hchars] at hslash
    | cons c rest => simp [isAbsolute, hchars]
  · rw [if_neg Bool.false_ne_true, if_neg hslash]
    cases hchars : directory.toList with
    | nil =>
        have hempty : isAbsolute directory = false := by simp [isAbsolute, hchars]
        rw [hempty, ← h.not_absolute]
        simp [isAbsolute, hchars]
    | cons c rest => simp [isAbsolute, hchars]

/-- **JOINED PATHS** of single names are the same exactly if the directories are
    and the names. -/
theorem samePath_joinPath_iff {directory other a b : String} (ha : SingleName a)
    (hb : SingleName b) :
    SamePath (joinPath directory a) (joinPath other b) ↔ SamePath directory other ∧ a = b := by
  simp only [SamePath]
  rw [isAbsolute_joinPath directory ha, isAbsolute_joinPath other hb,
    countedNames_joinPath directory ha, countedNames_joinPath other hb]
  constructor
  · rintro ⟨hroot, hnames⟩
    obtain ⟨hdirectory, hname⟩ := List.append_inj' hnames rfl
    exact ⟨⟨hroot, hdirectory⟩, String.toList_inj.mp (List.singleton_inj.mp hname)⟩
  · rintro ⟨⟨hroot, hdirectory⟩, rfl⟩
    exact ⟨hroot, congrArg (· ++ _) hdirectory⟩

/-! ## Names in a directory -/

/-- The name of an entry is the text whose bytes it is. -/
theorem DirectoryEntry.name_of_text? {entry : DirectoryEntry} {name : String}
    (h : entry.text? = some name) : entry.name = Utf8.encode name.toList := by
  obtain ⟨text, htext, rfl⟩ := Option.map_eq_some_iff.mp h
  rw [String.toList_ofList]
  exact Utf8.decode?_eq_some_iff.mp htext

/-- A text whose bytes are a plain name is a single name. -/
theorem PlainName.singleName {name : String} (h : PlainName (Utf8.encode name.toList)) :
    SingleName name where
  counts := by
    refine ⟨?_, ?_⟩
    · intro hnil
      exact h.nonempty (by rw [hnil]; rfl)
    · intro hdot
      exact h.not_dot (by rw [hdot]; decide)
  no_slash := by
    intro hmem
    exact h.no_slash (List.mem_flatMap.mpr ⟨'/', hmem, by decide⟩)

theorem mem_fileNames {entries : List DirectoryEntry} {name : String} :
    name ∈ fileNames entries
      ↔ ∃ entry ∈ entries, entry.regular = true ∧ entry.text? = some name := by
  simp only [fileNames]
  rw [List.mem_mergeSort, List.mem_filterMap]
  constructor
  · rintro ⟨entry, hentry, htext⟩
    obtain ⟨hmem, hregular⟩ := List.mem_filter.mp hentry
    exact ⟨entry, hmem, hregular, htext⟩
  · rintro ⟨entry, hmem, hregular, htext⟩
    exact ⟨entry, List.mem_filter.mpr ⟨hmem, hregular⟩, htext⟩

/-- The names of files are single names. -/
theorem WellNamed.singleName {entries : List DirectoryEntry} (h : WellNamed entries)
    {name : String} (hname : name ∈ fileNames entries) : SingleName name := by
  obtain ⟨entry, hmem, hregular, htext⟩ := mem_fileNames.mp hname
  have hplain := h.plain entry hmem hregular
  rw [DirectoryEntry.name_of_text? htext] at hplain
  exact hplain.singleName

/-- Entries with different names are files with different names. -/
theorem nodup_fileNames {entries : List DirectoryEntry}
    (hdistinct : (entries.map (·.name)).Nodup) : (fileNames entries).Nodup := by
  simp only [fileNames]
  rw [(List.mergeSort_perm _ _).nodup_iff, List.Nodup, List.pairwise_filterMap]
  refine ((List.pairwise_map.mp hdistinct).filter _).imp ?_
  intro entry other hne name hname name' hname' hsame
  refine hne ?_
  rw [DirectoryEntry.name_of_text? hname, DirectoryEntry.name_of_text? hname', hsame]

/-- Different single names in one directory have paths that are not the same. -/
theorem apart_joinPath (directory : String) {names : List String} (hsingle : ∀ name ∈ names,
    SingleName name) (hdistinct : names.Nodup) : Apart (names.map (joinPath directory)) := by
  refine List.pairwise_map.mpr (hdistinct.imp_of_mem ?_)
  intro a b ha hb hne hsame
  exact hne ((samePath_joinPath_iff (hsingle a ha) (hsingle b hb)).mp hsame).2

/-! ## Datasets -/

/-- The names of the files that a directory lists; none if it cannot be listed. -/
def FileView.fileNamesIn (files : FileView) (directory : String) : List String :=
  match files.list directory with
  | .ok entries => fileNames entries
  | .error _ => []

theorem FileView.fileNamesIn_eq {files : FileView} {directory : String}
    {entries : List DirectoryEntry} (h : files.list directory = .ok entries) :
    files.fileNamesIn directory = fileNames entries := by
  simp only [FileView.fileNamesIn]
  rw [h]

/-- What is made of the names in a directory is made of what it lists. -/
theorem listed_eq_ok_iff {α : Type} {files : FileView} {directory : String}
    {make : List String → Journaled α} {made : α} :
    ((listFileNames files directory).andThen make).outcome = .ok made
      ↔ ∃ entries, files.list directory = .ok entries
        ∧ (make (fileNames entries)).outcome = .ok made := by
  rw [Journaled.andThen_eq_ok_iff]
  simp only [listFileNames]
  cases files.list directory with
  | error error =>
      constructor
      · rintro ⟨_, hnames, -⟩
        cases hnames
      · rintro ⟨_, hlist, -⟩
        cases hlist
  | ok entries =>
      constructor
      · rintro ⟨names, hnames, hmade⟩
        obtain rfl : fileNames entries = names := Except.ok.inj hnames
        exact ⟨entries, rfl, hmade⟩
      · rintro ⟨_, hlist, hmade⟩
        cases hlist
        exact ⟨_, rfl, hmade⟩

/-- The name of an asker of steps is longer than that of a participant. -/
theorem ne_of_isStepAsker {asker participant : String} (h : isStepAsker asker = true)
    (hother : isStepParticipant participant = true) : asker ≠ participant := by
  rintro rfl
  have hone : asker.toList.length = 1 := of_decide_eq_true hother
  have hlong := (List.isPrefixOf_iff_prefix.mp h).length_le
  rw [hone] at hlong
  exact absurd hlong (by decide)

/-- **STEP RUNS**: no two logs of a step run are the same. -/
theorem stepDataset_apart {files : FileView} (hnamed : files.WellNamed) {directory : String}
    {dataset : StepDataset} (h : (StepDataset.discover files directory).outcome = .ok dataset) :
    Apart dataset.paths := by
  obtain ⟨entries, hlist, hmade⟩ := listed_eq_ok_iff.mp h
  have hwell := hnamed directory entries hlist
  have hmade : StepDataset.ofNames directory (fileNames entries) = .ok dataset := hmade
  simp only [StepDataset.ofNames] at hmade
  cases hfind : (fileNames entries).find? isStepAsker with
  | none =>
      rw [hfind] at hmade
      cases hmade
  | some asker =>
      rw [hfind] at hmade
      cases hmade
      refine List.pairwise_cons.mpr ⟨?_, ?_⟩
      · intro path hpath hsame
        obtain ⟨participant, hparticipant, rfl⟩ := List.mem_map.mp hpath
        obtain ⟨hmem, hone⟩ := List.mem_filter.mp hparticipant
        refine ne_of_isStepAsker (List.find?_some hfind) hone ?_
        exact ((samePath_joinPath_iff (hwell.singleName (List.mem_of_find?_eq_some hfind))
          (hwell.singleName hmem)).mp hsame).2
      · exact apart_joinPath directory
          (fun name hname => hwell.singleName (List.mem_filter.mp hname).1)
          ((nodup_fileNames hwell.distinct).filter _)

/-- Whether the asker of a cycle run is one of its participants. -/
def CycleDataset.AskerTakesPart (dataset : CycleDataset) : Prop :=
  ∃ participant ∈ dataset.participants, SamePath dataset.asker participant

/-- The dataset of a cycle run, which has at least one cycle, is made of the names
    that the directory of the participants lists. -/
theorem discover_eq_ok_iff {files : FileView} {dataDirectory peerDirectory asker : String}
    {cycles : Nat} {dataset : CycleDataset} :
    (CycleDataset.discover files dataDirectory peerDirectory asker cycles).outcome = .ok dataset
      ↔ cycles ≠ 0 ∧ ∃ entries, files.list peerDirectory = .ok entries
        ∧ dataset = .ofNames dataDirectory peerDirectory asker cycles (fileNames entries) := by
  simp only [CycleDataset.discover]
  by_cases hnone : cycles = 0
  · rw [if_pos hnone]
    constructor
    · intro heq
      cases heq
    · rintro ⟨hsome, -⟩
      exact absurd hnone hsome
  · rw [if_neg hnone, Journaled.bind_eq_andThen, listed_eq_ok_iff]
    constructor
    · rintro ⟨entries, hlist, hmade⟩
      exact ⟨hnone, entries, hlist, (Except.ok.inj hmade).symm⟩
    · rintro ⟨-, entries, hlist, rfl⟩
      exact ⟨entries, hlist, rfl⟩

/-- **LISTED TWICE**: no two logs of a step run are the same, and no two
    participants of a cycle run are.  The asker of a cycle run is a participant
    too exactly if its path is the directory of the participants and behind it
    the name of a file there that is a number; if it is given by a single name,
    exactly if that is such a number and both directories are the same. -/
theorem logs_listed_twice_exactly (files : FileView) (hnamed : files.WellNamed) :
    (∀ (directory : String) (dataset : StepDataset),
        (StepDataset.discover files directory).outcome = .ok dataset → Apart dataset.paths)
      ∧ ∀ (dataDirectory peerDirectory asker : String) (cycles : Nat) (dataset : CycleDataset),
        (CycleDataset.discover files dataDirectory peerDirectory asker cycles).outcome
          = .ok dataset →
        Apart dataset.participants
          ∧ (dataset.AskerTakesPart
            ↔ ∃ name ∈ files.fileNamesIn peerDirectory, isCycleParticipant name = true
              ∧ isAbsolute dataset.asker = isAbsolute peerDirectory
              ∧ countedNames dataset.asker.toList
                = countedNames peerDirectory.toList ++ [name.toList])
          ∧ (SingleName asker →
            (dataset.AskerTakesPart
              ↔ isCycleParticipant asker = true ∧ asker ∈ files.fileNamesIn peerDirectory
                ∧ SamePath dataDirectory peerDirectory)) := by
  refine ⟨fun directory dataset h => stepDataset_apart hnamed h, ?_⟩
  intro dataDirectory peerDirectory asker cycles dataset h
  obtain ⟨-, entries, hlist, rfl⟩ := discover_eq_ok_iff.mp h
  have hsingle : ∀ name ∈ fileNames entries, SingleName name :=
    fun name hname => (hnamed peerDirectory entries hlist).singleName hname
  -- a participant is a number among the names, and nothing else
  have htakes : ∀ path : String, (∃ participant ∈ ((fileNames entries).filter
      isCycleParticipant).map (joinPath peerDirectory), SamePath path participant)
        ↔ ∃ name ∈ fileNames entries, isCycleParticipant name = true
          ∧ SamePath path (joinPath peerDirectory name) := by
    intro path
    constructor
    · rintro ⟨participant, hparticipant, hsame⟩
      obtain ⟨name, hname, rfl⟩ := List.mem_map.mp hparticipant
      obtain ⟨hmem, hnumber⟩ := List.mem_filter.mp hname
      exact ⟨name, hmem, hnumber, hsame⟩
    · rintro ⟨name, hmem, hnumber, hsame⟩
      exact ⟨_, List.mem_map_of_mem (List.mem_filter.mpr ⟨hmem, hnumber⟩), hsame⟩
  rw [FileView.fileNamesIn_eq hlist]
  refine ⟨?_, ?_, ?_⟩
  · exact apart_joinPath peerDirectory (fun name hname => hsingle name (List.mem_filter.mp hname).1)
      ((nodup_fileNames (hnamed peerDirectory entries hlist).distinct).filter _)
  · refine (htakes _).trans (exists_congr fun name => and_congr_right fun hname => ?_)
    refine and_congr_right fun _ => ?_
    show SamePath _ _ ↔ _
    rw [SamePath, isAbsolute_joinPath peerDirectory (hsingle name hname),
      countedNames_joinPath peerDirectory (hsingle name hname)]
  · intro hasker
    refine (htakes _).trans ?_
    constructor
    · rintro ⟨name, hname, hnumber, hsame⟩
      obtain ⟨hdirectory, rfl⟩ := (samePath_joinPath_iff hasker (hsingle name hname)).mp hsame
      exact ⟨hnumber, hname, hdirectory⟩
    · rintro ⟨hnumber, hname, hdirectory⟩
      exact ⟨asker, hname, hnumber,
        (samePath_joinPath_iff hasker (hsingle asker hname)).mpr ⟨hdirectory, rfl⟩⟩

/-- A directory with the logs of an asker and of one participant, both named by
    numbers. -/
def numberedRun : FileSystem :=
  .ofLayout
    [(Utf8.encode "run/1".toList,
        .file (Utf8.encode "Start Cycle 0: 1000\nEnd ID: 1_1test0, 1500\n".toList)),
      (Utf8.encode "run/2".toList,
        .file (Utf8.encode "Waiting, id time: 2_1test0 30\n".toList))]

theorem list_numberedRun : numberedRun.view.list "run" = .ok [⟨[49], true⟩, ⟨[50], true⟩] := by
  decide +kernel

theorem fileNames_numberedRun : fileNames [⟨[49], true⟩, ⟨[50], true⟩] = ["1", "2"] := by
  refine (List.mergeSort_of_pairwise ?_).trans ?_
  · decide +kernel
  · decide +kernel

/-- Whoever asks, the participants of the directory are both. -/
theorem discover_numberedRun (asker : String) :
    (CycleDataset.discover numberedRun.view "run" "run" asker 1).outcome
      = .ok ⟨joinPath "run" asker, ["run/1", "run/2"], "run", 1⟩ := by
  refine discover_eq_ok_iff.mpr ⟨Nat.one_ne_zero, _, list_numberedRun, ?_⟩
  rw [fileNames_numberedRun]
  rfl

/-- The asker of the directory is a participant under its own name, and under no
    other. -/
theorem askerTakesPart_numberedRun :
    numberedRun.view.WellNamed
      ∧ CycleDataset.AskerTakesPart ⟨"run/1", ["run/1", "run/2"], "run", 1⟩
      ∧ ¬ CycleDataset.AskerTakesPart ⟨"run/log", ["run/1", "run/2"], "run", 1⟩ := by
  have hnamed : numberedRun.view.WellNamed := (FileSystem.sound_ofLayout _).view
  have hexactly := (logs_listed_twice_exactly numberedRun.view hnamed).2
  have hlisted : numberedRun.view.fileNamesIn "run" = ["1", "2"] :=
    (FileView.fileNamesIn_eq list_numberedRun).trans fileNames_numberedRun
  refine ⟨hnamed, ?_, ?_⟩
  · have hone := (hexactly "run" "run" "1" 1 _ (discover_numberedRun "1")).2.2
      ⟨by decide, by decide⟩
    rw [hlisted] at hone
    exact hone.mpr (by decide)
  · have hlog := (hexactly "run" "run" "log" 1 _ (discover_numberedRun "log")).2.2
      ⟨by decide, by decide⟩
    exact fun htakes => absurd (hlog.mp htakes).1 (by decide)

/-- **TWICE**: the directory lists its names once each, and still the asker's log
    is read as a participant's. -/
theorem not_every_asker_is_apart :
    ¬ ∀ files : FileView, files.WellNamed →
      ∀ (dataDirectory peerDirectory asker : String) (cycles : Nat) (dataset : CycleDataset),
        (CycleDataset.discover files dataDirectory peerDirectory asker cycles).outcome
          = .ok dataset → dataset.asker ∉ dataset.participants := by
  intro h
  exact h numberedRun.view (FileSystem.sound_ofLayout _).view "run" "run" "1" 1 _
    (discover_numberedRun "1") (by decide)

end RunTimings
