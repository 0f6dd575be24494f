/-!
# Paths — names joined by slashes

Paths are kept as they were given, since reports and messages show them: nothing is simplified when
a name is joined to a directory.
-/

namespace RunTimings

/-- Whether a path starts at the root. -/
def isAbsolute (path : String) : Bool :=
  path.toList.head? = some '/'

/-- Whether a slash is missing between a directory and a name. -/
def needsSlash (directory : String) : Bool :=
  directory.toList.getLast?.any (· ≠ '/')

/-- The path of a name in a directory. A name that is itself an absolute path replaces the
directory. -/
def joinPath (directory name : String) : String :=
  if isAbsolute name then name
  else if needsSlash directory then directory ++ "/" ++ name
  else directory ++ name

/-- Different plain names have different paths. -/
theorem joinPath_injective {directory a b : String} (ha : isAbsolute a = false)
    (hb : isAbsolute b = false) (h : joinPath directory a = joinPath directory b) : a = b := by
  simp only [joinPath, ha, hb, Bool.false_eq_true, if_false] at h
  split at h
  · exact String.append_right_inj _ |>.1 h
  · exact String.append_right_inj _ |>.1 h

end RunTimings
