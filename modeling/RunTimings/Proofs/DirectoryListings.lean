import Mathlib.Data.List.Nodup
import RunTimings.FileSystem.Layout
import RunTimings.Proofs.Outcomes

/-! # Directory listings — what can stand in one

    A directory lists each of its names once, and a name of a file is neither
    empty nor a dot and holds no slash.  An analysis is handed listings and has
    to take that on trust; here it is proved of the file systems that are kept
    as data.

    * `WellNamed` is what is expected of a listing, `FileView.WellNamed` of all.
    * `FileSystem.Sound` is the invariant behind it: every place occurs once, and
      the last name of a file is plain.  Whatever is put into a file system keeps
      it (`Sound.put`), so writing does (`Sound.save`), and laying out does, entry
      by entry (`Sound.makeEntry`, `sound_ofLayout`).
    * `FileSystem.Sound.view` — a sound file system lists its directories well. -/

namespace RunTimings

open RunTimings.Text

/-- A name that a file can have in its directory. -/
structure PlainName (name : FileName) : Prop where
  nonempty : name ≠ []
  not_dot : name ≠ dot
  no_slash : slash ∉ name

/-- A listing that names nothing twice, and files by plain names. -/
structure WellNamed (entries : List DirectoryEntry) : Prop where
  distinct : (entries.map (·.name)).Nodup
  plain : ∀ entry ∈ entries, entry.regular = true → PlainName entry.name

/-- All directories are listed well. -/
def FileView.WellNamed (files : FileView) : Prop :=
  ∀ directory entries, files.list directory = .ok entries → RunTimings.WellNamed entries

namespace FileSystem

/-! ## Sound file systems -/

/-- Every place occurs once, and files have plain names. -/
structure Sound (fs : FileSystem) : Prop where
  places : (fs.nodes.map Prod.fst).Nodup
  files : ∀ above name bytes, (above ++ [name], .file bytes) ∈ fs.nodes → PlainName name

/-- What is overwritten is the one node that is put there. -/
theorem mem_of_mem_overwrite {place : Place} {node : Node} {nodes : List (Place × Node)}
    {entry : Place × Node} (h : entry ∈ overwrite place node nodes) :
    entry = (place, node) ∨ entry ∈ nodes := by
  induction nodes with
  | nil => exact .inl (List.mem_singleton.mp h)
  | cons first rest ih =>
      obtain ⟨other, kept⟩ := first
      rw [overwrite] at h
      split at h
      · rcases List.mem_cons.mp h with hnew | hrest
        · exact .inl hnew
        · exact .inr (List.mem_cons_of_mem _ hrest)
      · rcases List.mem_cons.mp h with hfirst | hrest
        · exact .inr (hfirst ▸ List.mem_cons_self)
        · exact (ih hrest).imp_right (List.mem_cons_of_mem _)

/-- Overwriting makes no place occur twice. -/
theorem nodup_overwrite {place : Place} {node : Node} {nodes : List (Place × Node)}
    (h : (nodes.map Prod.fst).Nodup) : ((overwrite place node nodes).map Prod.fst).Nodup := by
  induction nodes with
  | nil => exact List.nodup_singleton place
  | cons first rest ih =>
      obtain ⟨other, kept⟩ := first
      obtain ⟨hfirst, hrest⟩ := List.nodup_cons.mp h
      rw [overwrite]
      by_cases hplace : place = other
      · rw [if_pos hplace, hplace]
        exact h
      · rw [if_neg hplace]
        refine List.nodup_cons.mpr ⟨?_, ih hrest⟩
        intro hmem
        obtain ⟨entry, hentry, heq⟩ := List.mem_map.mp hmem
        rcases mem_of_mem_overwrite hentry with rfl | hold
        · exact hplace heq
        · exact hfirst (List.mem_map.mpr ⟨entry, hold, heq⟩)

/-- **ONE NODE**: a file system stays sound if a file that is put into it has a
    plain name. -/
theorem Sound.put {fs : FileSystem} (h : fs.Sound) {place : Place} {node : Node}
    (hfile : ∀ above name bytes, place = above ++ [name] → node = .file bytes → PlainName name) :
    (fs.put place node).Sound where
  places := nodup_overwrite h.places
  files := by
    intro above name bytes hmem
    rcases mem_of_mem_overwrite hmem with heq | hold
    · obtain ⟨hplace, hnode⟩ := Prod.mk.inj heq
      exact hfile above name bytes hplace.symm hnode.symm
    · exact h.files above name bytes hold

/-- How far a file is filled does not matter. -/
theorem Sound.fill {fs : FileSystem} (h : fs.Sound) {above : Place} {name : FileName}
    (hplain : PlainName name) (held : Nat) (bytes : List UInt8) :
    (fs.fill (above ++ [name]) held bytes).files.Sound := by
  have hput (bytes : List UInt8) : (fs.put (above ++ [name]) (.file bytes)).Sound := by
    refine h.put ?_
    intro above' name' _ hplace _
    obtain rfl : name = name' := List.singleton_inj.mp (List.append_inj' hplace rfl).2
    exact hplain
  rw [FileSystem.fill]
  split
  · exact hput bytes
  split
  · exact ⟨(hput bytes).places, (hput bytes).files⟩
  · exact ⟨(hput _).places, (hput _).files⟩

/-- A walk that does not end at a directory ends at a plain name. -/
theorem Ends.named {fs : FileSystem} {found : Destination} (h : fs.Ends found)
    (hnode : found.node ≠ some .directory) :
    ∃ above name, found.place = above ++ [name] ∧ PlainName name := by
  cases h with
  | directory place => exact absurd rfl hnode
  | leaf nonempty not_dot no_slash => exact ⟨_, _, rfl, nonempty, not_dot, no_slash⟩

/-- Writing a file keeps a file system sound. -/
theorem Sound.save {fs : FileSystem} (h : fs.Sound) (path bytes : List UInt8) :
    (fs.save path bytes).files.Sound := by
  rw [FileSystem.save]
  split
  · exact h
  rename_i found hfound
  rw [writeAt]
  split
  · exact h
  rename_i hnode
  obtain ⟨above, name, hplace, hplain⟩ := (find_ends hfound).named hnode
  rw [hplace]
  split
  · exact h
  split
  · rw [files_feed]
    exact h
  · exact h.fill hplain _ bytes
  · exact h.fill hplain _ bytes

theorem Sound.makeDirectories {fs : FileSystem} (h : fs.Sound) (above names : List FileName) :
    (fs.makeDirectories above names).Sound := by
  induction names generalizing fs above with
  | nil => exact h
  | cons name rest ih =>
      rw [FileSystem.makeDirectories]
      split
      · exact ih (h.put fun _ _ _ _ hnode => by cases hnode) _
      · exact ih h _

/-- What is put into a directory that is made, and is no file, keeps a file system
    sound. -/
theorem Sound.makeEntry {fs : FileSystem} (h : fs.Sound) (path : List UInt8) (node : Node) :
    (fs.makeEntry path node).Sound := by
  have hmade := h.makeDirectories [] ((namesOf path).filter (· ≠ [])).dropLast
  cases node with
  | directory => exact h.makeDirectories _ _
  | file bytes => exact hmade.save path bytes
  | link target =>
      simp only [FileSystem.makeEntry]
      split
      · split
        · exact hmade.put fun _ _ _ _ hnode => nomatch hnode
        · exact hmade
      · exact hmade
  | device input sink =>
      simp only [FileSystem.makeEntry]
      split
      · split
        · exact hmade.put fun _ _ _ _ hnode => nomatch hnode
        · exact hmade
      · exact hmade

/-- At first there are some devices, and no files. -/
theorem sound_scratch : scratch.Sound where
  places := by decide
  files := by
    intro above name bytes hmem
    simp [scratch] at hmem

/-- **LAYOUTS**: a file system that is laid out is sound. -/
theorem sound_ofLayout (entries : List (List UInt8 × Node)) : (ofLayout entries).Sound := by
  have hfold : ∀ fs : FileSystem, fs.Sound →
      (entries.foldl (fun fs entry => fs.makeEntry entry.1 entry.2) fs).Sound := by
    induction entries with
    | nil => exact fun _ h => h
    | cons entry rest ih => exact fun fs h => ih _ (h.makeEntry entry.1 entry.2)
  exact hfold scratch sound_scratch

theorem entryIn_eq_some {directory : Place} {item : Place × Node} {entry : DirectoryEntry}
    (h : entryIn directory item = some entry) :
    item.1 = directory ++ [entry.name]
      ∧ (entry.regular = true → ∃ bytes, item.2 = .file bytes) := by
  obtain ⟨place, node⟩ := item
  simp only [entryIn] at h
  obtain ⟨⟨-, habove⟩, hname⟩ := Option.ite_none_right_eq_some.mp h
  obtain ⟨name, hlast, rfl⟩ := Option.map_eq_some_iff.mp hname
  refine ⟨?_, ?_⟩
  · rw [← habove]
    exact (List.dropLast_append_getLast? name hlast).symm
  · intro hregular
    cases node with
    | file bytes => exact ⟨bytes, rfl⟩
    | directory => cases hregular
    | link target => cases hregular
    | device input sink => cases hregular

/-- **LISTINGS**: a sound file system lists its directories well. -/
theorem Sound.view {fs : FileSystem} (h : fs.Sound) : fs.view.WellNamed := by
  intro directory entries hlist
  have hlookAt : (fs.lookAt (Utf8.encode directory.toList)).bind _ = .ok entries := hlist
  obtain ⟨found, -, hfound⟩ := bind_eq_ok_iff.mp hlookAt
  split at hfound
  · cases hfound
  split at hfound
  · cases hfound
  · cases hfound
    refine ⟨?_, ?_⟩
    · -- two entries of one name would be at one place
      rw [List.Nodup, List.pairwise_map, List.pairwise_filterMap]
      refine (List.pairwise_map.mp h.places).imp ?_
      intro item other hne entry hentry entry' hentry' hsame
      rw [(entryIn_eq_some hentry).1, (entryIn_eq_some hentry').1, hsame] at hne
      exact hne rfl
    · intro entry hmem hregular
      obtain ⟨⟨place, node⟩, hitem, hentry⟩ := List.mem_filterMap.mp hmem
      obtain ⟨hplace, hfile⟩ := entryIn_eq_some hentry
      obtain ⟨bytes, hnode⟩ := hfile hregular
      obtain rfl : place = _ := hplace
      obtain rfl : node = _ := hnode
      exact h.files found.place entry.name bytes hitem

end FileSystem

end RunTimings
