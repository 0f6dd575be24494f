import RunTimings.CommandLine.Arguments
import RunTimings.Proofs.Outcomes

/-! # Command lines — the file that takes the report, named or not

    A command line is read argument by argument, and no argument takes back what an
    earlier one gave.  So if no file is named to the end, none was named on the way,
    and the same arguments are read alike after one that names a file.

    * `unsent_argument`, `unsent_foldlM` — one argument after the verb, and all of
      them, beside the same with a file named beforehand.
    * `readVerb_split` — the verb stands somewhere, and what follows it is not read
      to find it.
    * `ofArguments_sentTo` — every command without a file is asked for in other
      words that name one, and nothing else differs. -/

namespace RunTimings

namespace Given

/-- The same, with a file that takes the report. -/
def sentTo (path : String) (given : Given) : Given :=
  { given with out := some path }

/-- A step after which no file is named: none was named before it, and it is the
    same step if one was. -/
def Unsent (step : Given → Except Halt Given) : Prop :=
  ∀ given after, step given = .ok after → after.out = none →
    given.out = none ∧ ∀ path, step (given.sentTo path) = .ok (after.sentTo path)

/-- A value for a place of its own, given once at most. -/
theorem unsent_once {α : Type} (value : Except Halt α) (get : Given → Option α)
    (set : Given → Option α → Given) (hget : ∀ given path, get (given.sentTo path) = get given)
    (hset : ∀ given path held, set (given.sentTo path) held = (set given held).sentTo path)
    (hout : ∀ given held, (set given held).out = given.out) :
    Unsent fun given => value.bind fun a => (once a (get given)).bind fun held =>
      .ok (set given held) := by
  intro given after h hafter
  obtain ⟨a, hvalue, h⟩ := bind_eq_ok_iff.mp h
  obtain ⟨held, honce, heq⟩ := bind_eq_ok_iff.mp h
  cases heq
  refine ⟨(hout given held).symm.trans hafter, fun path => ?_⟩
  refine bind_eq_ok_iff.mpr ⟨a, hvalue, bind_eq_ok_iff.mpr ⟨held, ?_, ?_⟩⟩
  · rw [hget, honce]
  · rw [hset]

/-- The value of an option: that of the file names one, and every other goes to its
    own place. -/
theorem unsent_withValue (word : String) (option : ValueOption) :
    Unsent fun given => given.withValue word option := by
  cases option with
  | format =>
      exact unsent_once _ (·.format) (fun given held => { given with format := held })
        (fun _ _ => rfl) (fun _ _ _ => rfl) (fun _ _ => rfl)
  | out =>
      intro given after h hafter
      obtain ⟨path, -, h⟩ := bind_eq_ok_iff.mp h
      obtain ⟨held, honce, heq⟩ := bind_eq_ok_iff.mp h
      cases heq
      cases hgiven : given.out with
      | none =>
          rw [hgiven] at honce
          cases honce
          exact nomatch hafter
      | some _ =>
          rw [hgiven] at honce
          exact nomatch honce
  | peers =>
      exact unsent_once _ (·.peers) (fun given held => { given with peers := held })
        (fun _ _ => rfl) (fun _ _ _ => rfl) (fun _ _ => rfl)
  | asker =>
      exact unsent_once (.ok word) (·.asker) (fun given held => { given with asker := held })
        (fun _ _ => rfl) (fun _ _ _ => rfl) (fun _ _ => rfl)
  | cycles =>
      exact unsent_once _ (·.cycles) (fun given held => { given with cycles := held })
        (fun _ _ => rfl) (fun _ _ _ => rfl) (fun _ _ => rfl)

theorem unsent_withWord (word : String) : Unsent fun given => given.withWord word :=
  unsent_once _ (·.directory) (fun given held => { given with directory := held })
    (fun _ _ => rfl) (fun _ _ _ => rfl) (fun _ _ => rfl)

theorem unsent_quieter : Unsent quieter := by
  intro given after h hafter
  rw [quieter] at h
  split at h
  · cases h
  rename_i hquiet
  cases h
  exact ⟨hafter, fun path => if_neg hquiet⟩

end Given

namespace Reading

/-- The same, with a file that takes the report. -/
def sentTo (path : String) (reading : Reading) : Reading :=
  { reading with given := reading.given.sentTo path }

/-- A step of reading after which no file is named, as above. -/
def Unsent (step : Reading → Except Halt Reading) : Prop :=
  ∀ reading after, step reading = .ok after → after.given.out = none →
    reading.given.out = none ∧ ∀ path, step (reading.sentTo path) = .ok (after.sentTo path)

/-- A step that changes nothing but which option waits for its value, and whether
    only words follow. -/
theorem unsent_ok {step : Reading → Reading}
    (hgiven : ∀ reading, (step reading).given = reading.given)
    (hsent : ∀ reading path, step (reading.sentTo path) = (step reading).sentTo path) :
    Unsent fun reading => .ok (step reading) := by
  intro reading after h hafter
  cases h
  exact ⟨(congrArg Given.out (hgiven reading)).symm.trans hafter,
    fun path => congrArg Except.ok (hsent reading path)⟩

theorem unsent_self : Unsent .ok :=
  unsent_ok (fun _ => rfl) (fun _ _ => rfl)

theorem unsent_error (halt : Halt) : Unsent fun _ => .error halt :=
  fun _ _ h _ => nomatch h

theorem Unsent.andThen {first second : Reading → Except Halt Reading} (hfirst : Unsent first)
    (hsecond : Unsent second) : Unsent fun reading => (first reading).bind second := by
  intro reading after h hafter
  obtain ⟨middle, hmiddle, hrest⟩ := bind_eq_ok_iff.mp h
  obtain ⟨hunsent, hsame⟩ := hsecond middle after hrest hafter
  obtain ⟨hbefore, hfront⟩ := hfirst reading middle hmiddle hunsent
  exact ⟨hbefore, fun path => bind_eq_ok_iff.mpr ⟨_, hfront path, hsame path⟩⟩

/-- A step that depends on a value that has to be there. -/
theorem unsent_demand {α : Type} (held : Option α) {step : α → Reading → Except Halt Reading}
    (h : ∀ a, Unsent (step a)) : Unsent fun reading => (demand held).bind (step · reading) := by
  cases held with
  | none => exact unsent_error .usage
  | some a => exact h a

/-- A step on what is given, after which the option that waited may wait no more,
    and what is read from there. -/
theorem unsent_given {step : Given → Except Halt Given} (hstep : Given.Unsent step)
    (waiting : Option ValueOption → Option ValueOption) {next : Reading → Except Halt Reading}
    (hnext : Unsent next) :
    Unsent fun reading => (step reading.given).bind fun given =>
      next { reading with given := given, awaiting := waiting reading.awaiting } := by
  intro reading after h hafter
  obtain ⟨given, hgiven, hrest⟩ := bind_eq_ok_iff.mp h
  obtain ⟨hunsent, hsame⟩ := hnext _ after hrest hafter
  obtain ⟨hbefore, hfront⟩ := hstep reading.given given hgiven hunsent
  exact ⟨hbefore, fun path => bind_eq_ok_iff.mpr ⟨_, hfront path, hsame path⟩⟩

theorem unsent_value (option : ValueOption) (word : String) :
    Unsent fun reading => reading.value option word :=
  unsent_given (Given.unsent_withValue word option) (fun _ => none) unsent_self

theorem unsent_louder {next : Reading → Except Halt Reading} (hnext : Unsent next) :
    Unsent fun reading => next { reading with given := reading.given.louder } :=
  fun _ after h hafter => hnext _ after h hafter

/-- The letter of the file, alone or with its value. -/
theorem unsent_fileLetter (verb : Option Verb) (row : List Char) :
    Unsent fun reading => letters verb ('o' :: row) reading := by
  simp only [letters]
  refine unsent_demand _ fun option => ?_
  split
  · exact unsent_ok (fun _ => rfl) (fun _ _ => rfl)
  · exact unsent_value option _
  · exact unsent_value option _

theorem unsent_letters (verb : Option Verb) (row : List Char) : Unsent (letters verb row) := by
  induction row with
  | nil => exact unsent_self
  | cons letter rest ih =>
      intro reading after h
      rw [letters.eq_def] at h
      split at h
      · rename_i heq
        cases heq
      · rename_i heq
        cases heq
        exact unsent_louder ih _ _ h
      · rename_i heq
        cases heq
        exact unsent_given Given.unsent_quieter id ih _ _ h
      · cases h
      · rename_i heq
        cases heq
        exact unsent_fileLetter verb rest _ _ h
      · cases h

theorem unsent_long (verb : Option Verb) (name : String) (attached : Option String) :
    Unsent fun reading => reading.long verb name attached := by
  unfold long
  split
  · exact unsent_louder unsent_self
  · exact unsent_given Given.unsent_quieter id unsent_self
  · exact unsent_error .help
  · refine unsent_demand _ fun option => ?_
    cases attached with
    | some word => exact unsent_value option word
    | none => exact unsent_ok (fun _ => rfl) (fun _ _ => rfl)

theorem unsent_option (verb : Option Verb) (argument : String) :
    Unsent fun reading => reading.option verb argument := by
  unfold option
  split
  · exact unsent_ok (fun _ => rfl) (fun _ _ => rfl)
  · exact unsent_long verb _ _
  · exact unsent_letters verb _
  · exact unsent_error .usage

theorem unsent_argument (verb : Verb) (word : String) :
    Unsent fun reading => reading.argument verb word := by
  rintro ⟨given, awaiting, wordsOnly⟩ after h hafter
  cases awaiting with
  | some option =>
      by_cases hword : looksLikeOption word
      · exact nomatch (if_pos hword).symm.trans h
      · obtain ⟨hbefore, hsame⟩ :=
          unsent_value option word _ _ ((if_neg hword).symm.trans h) hafter
        exact ⟨hbefore, fun path => (if_neg hword).trans (hsame path)⟩
  | none =>
      by_cases hword : !wordsOnly && looksLikeOption word
      · obtain ⟨hbefore, hsame⟩ :=
          unsent_option (some verb) word _ _ ((if_pos hword).symm.trans h) hafter
        exact ⟨hbefore, fun path => (if_pos hword).trans (hsame path)⟩
      · obtain ⟨hbefore, hsame⟩ :=
          unsent_given (Given.unsent_withWord word) id unsent_self ⟨given, none, wordsOnly⟩ _
            ((if_neg hword).symm.trans h) hafter
        exact ⟨hbefore, fun path => (if_neg hword).trans (hsame path)⟩

/-- All arguments after the verb, one after the other. -/
theorem unsent_foldlM (verb : Verb) (arguments : List String) :
    Unsent fun reading => arguments.foldlM (argument verb) reading := by
  induction arguments with
  | nil => exact unsent_self
  | cons word rest ih => exact (unsent_argument verb word).andThen ih

end Reading

/-- Up to the verb nothing is read of what follows it. -/
theorem readVerb_split {arguments rest : List String} {reading outer : Reading} {verb : Verb}
    (h : readVerb reading arguments = .ok (outer, verb, rest)) :
    ∃ before word, arguments = before ++ word :: rest ∧
      ∀ others, readVerb reading (before ++ word :: others) = .ok (outer, verb, others) := by
  induction arguments generalizing reading with
  | nil => cases h
  | cons argument arguments ih =>
      rw [readVerb] at h
      split at h
      · cases h
      rename_i hwords
      split at h
      · rename_i hoption
        obtain ⟨next, hnext, hread⟩ := bind_eq_ok_iff.mp h
        obtain ⟨before, word, rfl, hothers⟩ := ih hread
        refine ⟨argument :: before, word, rfl, fun others => ?_⟩
        rw [List.cons_append, readVerb, if_neg hwords, if_pos hoption]
        exact bind_eq_ok_iff.mpr ⟨next, hnext, hothers others⟩
      rename_i hoption
      split at h
      · cases h
      rename_i hhelp
      obtain ⟨_, hverb, heq⟩ := bind_eq_ok_iff.mp h
      cases heq
      refine ⟨[], argument, rfl, fun others => ?_⟩
      rw [List.nil_append, readVerb, if_neg hwords, if_neg hoption, if_neg hhelp]
      exact bind_eq_ok_iff.mpr ⟨verb, hverb, rfl⟩

/-- The file is an option of every verb. -/
theorem fits_out (verb : Verb) : ValueOption.fits (some verb) .out = true := by
  cases verb with
  | steps => rfl
  | cycles => rfl

namespace Reading

/-- The first value of the file option. -/
theorem value_out {path : String} (hpath : path ≠ "") (awaiting : Option ValueOption) :
    value { awaiting := awaiting } .out path = .ok (sentTo path {}) := by
  have hdemand : demand (pathOf path) = .ok path := by
    rw [pathOf, if_neg hpath, demand]
  exact bind_eq_ok_iff.mpr ⟨_, bind_eq_ok_iff.mpr ⟨path, hdemand, rfl⟩, rfl⟩

/-- A file named in one argument. -/
theorem foldlM_outEquals {path : String} (hpath : path ≠ "") (verb : Verb) :
    ["--out=" ++ path].foldlM (argument verb) {} = .ok (sentTo path {}) := by
  have hlist : ("--out=" ++ path).toList
      = '-' :: '-' :: 'o' :: 'u' :: 't' :: '=' :: path.toList := by
    simp
  have hlooks : looksLikeOption ("--out=" ++ path) := by
    rw [looksLikeOption, hlist]
    rfl
  have hafter : afterEquals ('o' :: 'u' :: 't' :: '=' :: path.toList) = some path := by
    show some (String.ofList path.toList) = some path
    rw [String.ofList_toList]
  have hread : option (some verb) {} ("--out=" ++ path) = value {} .out path := by
    rw [option, hlist]
    show long (some verb) {} "out" (afterEquals ('o' :: 'u' :: 't' :: '=' :: path.toList)) = _
    rw [hafter]
    show (demand ((some ValueOption.out).filter (ValueOption.fits (some verb)))).bind _ = _
    rw [Option.filter_some, if_pos (fits_out verb)]
    rfl
  have hargument : argument verb {} ("--out=" ++ path) = .ok (sentTo path {}) :=
    (if_pos hlooks).trans (hread.trans (value_out hpath none))
  rw [List.foldlM_cons, hargument]
  rfl

/-- A file named in an argument of its own. -/
theorem foldlM_outWord {path : String} (hpath : path ≠ "") (hword : ¬ looksLikeOption path)
    (verb : Verb) : ["-o", path].foldlM (argument verb) {} = .ok (sentTo path {}) := by
  have hletter : argument verb {} "-o" = .ok { awaiting := some .out } := by
    cases verb with
    | steps => rfl
    | cycles => rfl
  have hvalue : argument verb { awaiting := some .out } path = .ok (sentTo path {}) :=
    (if_neg hword).trans (value_out hpath _)
  rw [List.foldlM_cons, hletter]
  show (argument verb { awaiting := some .out } path).bind _ = _
  rw [hvalue]
  rfl

/-- A reading can end where no option waits and the flags do not contradict each
    other, and it gives what it has read. -/
theorem finish_eq_ok_iff {reading : Reading} {given : Given} :
    reading.finish = .ok given
      ↔ (reading.awaiting = none ∧ ¬ reading.given.contradicts) ∧ reading.given = given := by
  rw [finish]
  constructor
  · intro h
    split at h
    · rename_i hcomplete
      cases h
      exact ⟨hcomplete, rfl⟩
    · cases h
  · rintro ⟨hcomplete, rfl⟩
    exact if_pos hcomplete

end Reading

/-- **A FILE CAN BE NAMED**: a command for which no file takes the report is asked for
    in other words that name one, right after the verb, and nothing else differs. -/
theorem ofArguments_sentTo {arguments : List String} {command : Command}
    (h : Command.ofArguments arguments = .ok command) (hout : command.out = none) :
    ∃ before word after, arguments = before ++ word :: after ∧
      ∀ path, path ≠ "" →
        Command.ofArguments (before ++ word :: ("--out=" ++ path) :: after)
            = .ok { command with out := some path } ∧
        (¬ Reading.looksLikeOption path →
          Command.ofArguments (before ++ word :: "-o" :: path :: after)
            = .ok { command with out := some path }) := by
  obtain ⟨⟨outer, verb, after⟩, hverb, h⟩ := bind_eq_ok_iff.mp h
  obtain ⟨reading, hreading, h⟩ := bind_eq_ok_iff.mp h
  obtain ⟨given, hgiven, h⟩ := bind_eq_ok_iff.mp h
  obtain ⟨request, hrequest, h⟩ := bind_eq_ok_iff.mp h
  obtain ⟨front, hfront, heq⟩ := bind_eq_ok_iff.mp h
  cases heq
  obtain ⟨before, word, rfl, hothers⟩ := readVerb_split hverb
  obtain ⟨hcomplete, rfl⟩ := Reading.finish_eq_ok_iff.mp hgiven
  obtain ⟨-, hsent⟩ := Reading.unsent_foldlM verb after _ _ hreading hout
  have hnamed {path : String} {named : List String}
      (h : named.foldlM (Reading.argument verb) {} = .ok (Reading.sentTo path {})) :
      Command.ofArguments (before ++ word :: (named ++ after))
        = .ok ⟨request, reading.given.format.getD .text, some path,
            reading.given.verbosity.under front.verbosity⟩ := by
    refine bind_eq_ok_iff.mpr ⟨_, hothers (named ++ after), ?_⟩
    have hread : (named ++ after).foldlM (Reading.argument verb) {}
        = .ok (reading.sentTo path) := by
      rw [List.foldlM_append, h]
      exact hsent path
    refine bind_eq_ok_iff.mpr ⟨_, hread, ?_⟩
    refine bind_eq_ok_iff.mpr ⟨_, Reading.finish_eq_ok_iff.mpr ⟨hcomplete, rfl⟩, ?_⟩
    refine bind_eq_ok_iff.mpr ⟨request, hrequest, ?_⟩
    exact bind_eq_ok_iff.mpr ⟨front, hfront, rfl⟩
  exact ⟨before, word, after, rfl, fun path hpath =>
    ⟨hnamed (Reading.foldlM_outEquals hpath verb),
      fun hword => hnamed (Reading.foldlM_outWord hpath hword verb)⟩⟩

end RunTimings
