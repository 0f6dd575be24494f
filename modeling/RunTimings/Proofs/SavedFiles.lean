import RunTimings.FileSystem.Access

/-! # Saved files — what was written is there to be read

    A path is walked once to write and once to read, and on its way it may pass
    links.  Writing changes one place, and a walk passes no place at which there is
    a file, or nothing: it ends there.

    * `Ends.there` — where a walk ends, other than in a directory, there is what it
      says, and no link.
    * `save_cases` — writing is refused, or feeds a device, or fills a file.
    * `ChangedAt` says that a file system is another apart from one place, and
      `FilledAt` which file is there; `changedAt_save` and `filledAt_of_save` — writing
      comes to the one in any case, and to the other where a path leads to no device
      and nothing fails.
    * `FilledAt.walk` — so a walk that ends at a place ends there as well after a
      file has been put in it.
    * `FilledAt.load` — reading a path after writing it yields what was written. -/

namespace RunTimings

/-- The path has led to a device. -/
def Destination.ToDevice (found : Destination) : Prop :=
  ∃ input sink, found.node = some (.device input sink)

namespace FileSystem

variable {fs after : FileSystem} {place : Place} {bytes : List UInt8}

/-- At the end of a walk, other than in a directory, there is what the walk says, and
    no link. -/
theorem Ends.there {found : Destination} (h : fs.Ends found)
    (hnode : found.node ≠ some .directory) :
    fs.node? found.place = found.node ∧ ∀ target, found.node ≠ some (.link target) := by
  cases h with
  | directory place => exact absurd rfl hnode
  | leaf _ _ _ there no_link => exact ⟨there, no_link⟩

/-! ## Files that are written -/

/-- **WHAT WRITING COMES TO**: it is refused outright, or a device is given the bytes, or
    a file is filled with them. -/
theorem save_cases (fs : FileSystem) (path bytes : List UInt8) :
    (∃ error, fs.save path bytes = fs.refuse error ∧
      ∀ found, fs.find .make path = .ok found →
        found.node = some .directory ∨ fs.Denies (writing found) .write) ∨
    ∃ found, fs.find .make path = .ok found ∧ found.node ≠ some .directory ∧
      ((∃ input sink, found.node = some (.device input sink) ∧
          fs.save path bytes = fs.feed bytes sink) ∨
        ¬ found.ToDevice ∧ ∃ held, fs.save path bytes = fs.fill found.place held bytes) := by
  rw [save]
  split
  · rename_i error hlost
    exact .inl ⟨error, rfl, fun found hfound => by cases hlost.symm.trans hfound⟩
  rename_i found hfound
  have honly : ∀ other, fs.find .make path = .ok other → other = found :=
    fun other hother => Except.ok.inj (hother.symm.trans hfound)
  rw [writeAt]
  split
  · rename_i hnode
    exact .inl ⟨_, rfl, fun other hother => .inl (honly other hother ▸ hnode)⟩
  rename_i hnode
  split
  · rename_i hdenied
    exact .inl ⟨_, rfl, fun other hother => .inr (honly other hother ▸ hdenied)⟩
  refine .inr ⟨found, hfound, hnode, ?_⟩
  split
  · rename_i input sink hat
    exact .inl ⟨input, sink, hat, rfl⟩
  · rename_i held hat
    refine .inr ⟨?_, _, rfl⟩
    rintro ⟨input, sink, hdevice⟩
    cases hat.symm.trans hdevice
  · rename_i hdevice _
    refine .inr ⟨?_, _, rfl⟩
    rintro ⟨input, sink, hat⟩
    exact hdevice input sink hat

/-- Two file systems are met alike: by a process in the same directory, which is denied
    as much, and reading breaks off at the same places. -/
structure MetAlike (fs after : FileSystem) : Prop where
  here : after.here = fs.here
  denied : after.denied = fs.denied
  faults : after.faults = fs.faults

theorem MetAlike.denies_iff (h : MetAlike fs after) {right : Right} :
    after.Denies place right ↔ fs.Denies place right := by
  rw [Denies, Denies, h.denied]

/-- **FILLED**: a file system is another with a file at a place; everything else is
    the same. -/
structure FilledAt (fs after : FileSystem) (place : Place) (bytes : List UInt8) : Prop
    extends MetAlike fs after where
  node : ∀ other,
    after.node? other = if other = place then some (.file bytes) else fs.node? other

/-- **ONE PLACE**: a file system is another, apart from what is at the place to which a
    path leads. -/
structure ChangedAt (fs after : FileSystem) (path : List UInt8) : Prop
    extends MetAlike fs after where
  others : ∀ other, (∀ found, fs.find .make path = .ok found → other ≠ found.place) →
    after.node? other = fs.node? other

theorem metAlike_fill (fs : FileSystem) (place : Place) (held : Nat) (bytes : List UInt8) :
    MetAlike fs (fs.fill place held bytes).files := by
  rw [fill]
  split
  · exact ⟨rfl, rfl, rfl⟩
  split
  · exact ⟨rfl, rfl, rfl⟩
  · exact ⟨rfl, rfl, rfl⟩

theorem shown_fill (fs : FileSystem) (place : Place) (held : Nat) (bytes : List UInt8) :
    (fs.fill place held bytes).shown = false := by
  rw [fill]
  split
  · rfl
  split
  · rfl
  · rfl

/-- Where there is room for all bytes, the file is filled with them. -/
theorem filledAt_of_fill {held : Nat} (hroot : place ≠ [])
    (hok : (fs.fill place held bytes).outcome = .ok ()) :
    FilledAt fs (fs.fill place held bytes).files place bytes := by
  refine ⟨metAlike_fill fs place held bytes, fun other => ?_⟩
  rw [fill] at hok ⊢
  split at hok
  · exact node?_put hroot other _ fs
  split at hok
  · rename_i hroom
    rw [if_pos hroom]
    exact node?_put hroot other _ fs
  · cases hok

/-- A device that does not take all bytes shows none of them. -/
theorem shown_feed {sink : Sink} :
    (fs.feed bytes sink).shown = true ↔
      (fs.feed bytes sink).outcome = .ok () ∧ sink = .output := by
  cases sink with
  | nowhere => simp [feed]
  | output => simp [feed]
  | full =>
      rw [feed]
      split
      · simp
      · simp [refuse]

variable {path : List UInt8} {found : Destination}

/-- Writing changes one place, whether or not it comes to an end. -/
theorem changedAt_save (fs : FileSystem) (path bytes : List UInt8) :
    ChangedAt fs (fs.save path bytes).files path := by
  have hmet : MetAlike fs (fs.save path bytes).files := by
    rcases save_cases fs path bytes with
      ⟨error, hsave, -⟩ | ⟨found, -, -, ⟨input, sink, -, hsave⟩ | ⟨-, held, hsave⟩⟩
    · rw [hsave]
      exact ⟨rfl, rfl, rfl⟩
    · rw [hsave, files_feed]
      exact ⟨rfl, rfl, rfl⟩
    · rw [hsave]
      exact metAlike_fill fs _ _ _
  exact ⟨hmet, fun other hother => node?_save hother bytes⟩

/-- What cannot be written is not shown either. -/
theorem shown_of_unsaved {error : FileError}
    (herror : (fs.save path bytes).outcome = .error error) :
    (fs.save path bytes).shown = false := by
  rcases save_cases fs path bytes with
    ⟨error, hsave, -⟩ | ⟨found, -, -, ⟨input, sink, -, hsave⟩ | ⟨-, held, hsave⟩⟩
  · rw [hsave, refuse]
  · rw [hsave] at herror ⊢
    rw [Bool.eq_false_iff, Ne, shown_feed, herror]
    rintro ⟨hok, -⟩
    cases hok
  · rw [hsave, shown_fill]

/-- What is written leads somewhere. -/
theorem found_of_saved (hok : (fs.save path bytes).outcome = .ok ()) :
    ∃ found, fs.find .make path = .ok found := by
  rcases save_cases fs path bytes with ⟨error, hsave, -⟩ | ⟨found, hfound, -⟩
  · rw [hsave] at hok
    cases hok
  · exact ⟨found, hfound⟩

/-- A path that leads to no device is written, if nothing fails. -/
theorem filledAt_of_save (hfound : fs.find .make path = .ok found) (hdevice : ¬ found.ToDevice)
    (hok : (fs.save path bytes).outcome = .ok ()) :
    FilledAt fs (fs.save path bytes).files found.place bytes ∧
      (fs.save path bytes).shown = false ∧ found.node ≠ some .directory := by
  rcases save_cases fs path bytes with
    ⟨error, hsave, -⟩ | ⟨other, hother, hnode, hsave⟩
  · rw [hsave] at hok
    cases hok
  cases hfound.symm.trans hother
  rcases hsave with ⟨input, sink, hat, -⟩ | ⟨-, held, hsave⟩
  · exact absurd ⟨input, sink, hat⟩ hdevice
  rw [hsave] at hok ⊢
  exact ⟨filledAt_of_fill ((find_ends hfound).place_ne_nil hnode) hok, shown_fill fs _ _ _, hnode⟩

/-- A device that takes what is written to it leaves all files as they are. -/
theorem save_device {input : List UInt8} {sink : Sink}
    (hfound : fs.find .make path = .ok ⟨place, some (.device input sink)⟩)
    (hok : (fs.save path bytes).outcome = .ok ()) :
    (fs.save path bytes).files = fs ∧ ((fs.save path bytes).shown = true ↔ sink = .output) := by
  rcases save_cases fs path bytes with
    ⟨error, hsave, -⟩ | ⟨found, hother, -, ⟨input, sink, hat, hsave⟩ | ⟨hdevice, -⟩⟩
  · rw [hsave] at hok
    cases hok
  · cases hfound.symm.trans hother
    cases hat
    rw [hsave] at hok ⊢
    exact ⟨files_feed fs bytes sink, shown_feed.trans (and_iff_right hok)⟩
  · cases hfound.symm.trans hother
    exact absurd ⟨input, sink, rfl⟩ hdevice

/-- Where there is always room, a path that leads neither to a directory nor to a full
    device is written, if that is allowed. -/
theorem save_eq_ok (hfound : fs.find .make path = .ok found)
    (hnode : found.node ≠ some .directory)
    (hfull : ∀ input, found.node ≠ some (.device input .full))
    (hallowed : ¬ fs.Denies (writing found) .write) (hroom : fs.room = none) (bytes : List UInt8) :
    (fs.save path bytes).outcome = .ok () := by
  rcases save_cases fs path bytes with
    ⟨error, -, hwhy⟩ | ⟨other, hother, -, ⟨input, sink, hat, hsave⟩ | ⟨-, held, hsave⟩⟩
  · exact absurd (hwhy found hfound) (not_or.mpr ⟨hnode, hallowed⟩)
  · cases hfound.symm.trans hother
    rw [hsave]
    cases sink with
    | nowhere => rfl
    | output => rfl
    | full => exact absurd hat (hfull input)
  · rw [hsave, fill, hroom]

/-! ## Files that are read again -/

/-- A walk to a place and a walk to look for the file that is put there end alike,
    if walks behind links do: neither passes the place, since there is neither a
    directory nor a link. -/
theorem FilledAt.walkWith (hfilled : FilledAt fs after place bytes)
    (hdirectory : fs.node? place ≠ some .directory)
    (hlink : ∀ target, fs.node? place ≠ some (.link target))
    {purpose : Purpose} {follow again : Place → List FileName → Except FileError Destination}
    (behind : ∀ here names node, follow here names = .ok ⟨place, node⟩ →
      node ≠ some .directory → again here names = .ok ⟨place, some (.file bytes)⟩) :
    ∀ here names node, fs.walkWith purpose follow here names = .ok ⟨place, node⟩ →
      node ≠ some .directory →
      after.walkWith .look again here names = .ok ⟨place, some (.file bytes)⟩ := by
  intro here names node
  induction names generalizing here with
  | nil =>
      intro h hnode
      cases h
      exact absurd rfl hnode
  | cons name rest ih =>
      intro h hnode
      have hput := hfilled.node (here ++ [name])
      rw [FileSystem.walkWith] at h ⊢
      split at h
      · rename_i hempty
        rw [if_pos hempty]
        exact ih _ h hnode
      rename_i hempty
      rw [if_neg hempty]
      split at h
      · cases h
      rename_i hallowed
      rw [if_neg (mt hfilled.denies_iff.mp hallowed)]
      split at h
      · rename_i hstay
        rw [if_pos hstay]
        exact ih _ h hnode
      rename_i hstay
      rw [if_neg hstay]
      split at h
      · rename_i hup
        rw [if_pos hup]
        exact ih _ h hnode
      rename_i hup
      have hlook : ¬ (Purpose.look = .make ∧ rest = [[]]) := by simp
      rw [if_neg hup, if_neg hlook]
      split at h
      · cases h
      split at h
      · cases h
      rename_i hshort
      rw [if_neg hshort]
      -- a directory or a link is passed, and neither stands at the place
      split at h
      · rename_i hthere
        have hother : here ++ [name] ≠ place := fun heq => hdirectory (heq ▸ hthere)
        rw [hput, if_neg hother, hthere]
        exact ih _ h hnode
      · rename_i target hthere
        have hother : here ++ [name] ≠ place := fun heq => hlink target (heq ▸ hthere)
        rw [hput, if_neg hother, hthere]
        exact behind _ _ _ h hnode
      all_goals
        split at h
        · rename_i hend
          cases h
          rw [hput, if_pos rfl]
          exact if_pos hend
        · cases h

/-- The same of walks that follow so many links. -/
theorem FilledAt.walk (hfilled : FilledAt fs after place bytes)
    (hdirectory : fs.node? place ≠ some .directory)
    (hlink : ∀ target, fs.node? place ≠ some (.link target)) {purpose : Purpose} (links : Nat) :
    ∀ here names node, fs.walk purpose links here names = .ok ⟨place, node⟩ →
      node ≠ some .directory →
      after.walk .look links here names = .ok ⟨place, some (.file bytes)⟩ := by
  induction links with
  | zero =>
      refine hfilled.walkWith hdirectory hlink fun _ _ _ h => ?_
      cases h
  | succ links ih => exact hfilled.walkWith hdirectory hlink ih

/-- A path at whose end a file has been put leads to it. -/
theorem FilledAt.find {purpose : Purpose} {path : List UInt8} {found : Destination}
    (hfilled : FilledAt fs after found.place bytes) (h : fs.find purpose path = .ok found)
    (hnode : found.node ≠ some .directory) :
    after.find .look path = .ok ⟨found.place, some (.file bytes)⟩ := by
  obtain ⟨hthere, hlink⟩ := (find_ends h).there hnode
  obtain ⟨hpath, hwalk⟩ := find_eq_ok_iff.mp h
  refine find_eq_ok_iff.mpr ⟨hpath, ?_⟩
  rw [hfilled.here]
  exact hfilled.walk (hthere ▸ hnode) (hthere ▸ hlink) linkLimit _ _ _ hwalk hnode

/-- **READ AGAIN**: what has been put where a path leads is what is read there, if
    reading is allowed and does not break off. -/
theorem FilledAt.load {purpose : Purpose} {path : List UInt8} {found : Destination}
    (hfilled : FilledAt fs after found.place bytes) (h : fs.find purpose path = .ok found)
    (hnode : found.node ≠ some .directory) (hallowed : ¬ fs.Denies found.place .read)
    (hwhole : fs.faults.lookup found.place = none) : after.load path = .ok ⟨bytes, none⟩ := by
  rw [FileSystem.load, lookAt, hfilled.find h hnode]
  show (if after.Denies found.place .read then _ else _) = _
  rw [if_neg (mt hfilled.denies_iff.mp hallowed), readOn, hfilled.faults, hwhole]

end FileSystem

end RunTimings
