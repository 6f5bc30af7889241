import Mathlib.Data.List.TakeWhile
import StyledMarkup.Bundled.ArgumentReader
import StyledMarkup.Program

/-!
# Flags among the arguments

The reader of arguments that comes with the executable keeps what the program relies on. A
path that a command needs is there when the reading ends. A flag that is written in one way
only, two hyphens and then its name, is on if and only if it stands among the arguments before
any `--`: the reading has other steps, which take a value, a path or several letters, but none
of them brings in the flag or passes over it, and before the name of the command it is refused.
-/
namespace StyledMarkup

/-- Steps in a row succeed if and only if each succeeds on what the one before gives. -/
theorem bind_eq_ok_iff {ε α β : Type} {x : Except ε α} {f : α → Except ε β} {b : β} :
    (x >>= f) = .ok b ↔ ∃ a, x = .ok a ∧ f a = .ok b := by
  cases x with
  | error failure => exact ⟨nofun, nofun⟩
  | ok a => exact ⟨fun h => ⟨a, rfl, h⟩, fun ⟨_, ha, h⟩ => Except.ok.inj ha ▸ h⟩

theorem map_eq_ok_iff {ε α β : Type} {x : Except ε α} {f : α → β} {b : β} :
    x.map f = .ok b ↔ ∃ a, x = .ok a ∧ f a = b := by
  cases x <;> simp [Except.map]

namespace ArgumentMatches

theorem hasFlag_eq_true_iff {found : ArgumentMatches} {name : String} :
    found.hasFlag name = true ↔ name ∈ found.flags := List.contains_iff_mem

theorem flags_addValue {found after : ArgumentMatches} {name value : String}
    (h : found.addValue name value = .ok after) : after.flags = found.flags := by
  unfold addValue at h
  split at h
  · cases h
  · cases h
    rfl

theorem flags_addPath {found after : ArgumentMatches} {takesPath : Bool} {path : String}
    (h : found.addPath takesPath path = .ok after) : after.flags = found.flags := by
  unfold addPath at h
  split at h
  · exact flags_addValue h
  · cases h

theorem flags_addFlag {found after : ArgumentMatches} {spec : OptionSpec}
    (h : found.addFlag spec = .ok after) : after.flags = found.flags ++ [spec.name] := by
  unfold addFlag at h
  split at h
  · cases h
    rfl
  · split at h
    · cases h
    · cases h
      rfl
  all_goals cases h

end ArgumentMatches

namespace ArgumentReader

/-- An option that has no letter and takes no value. -/
structure IsFlag (specs : List OptionSpec) (flag : String) : Prop where
  found : (specs.find? fun spec => spec.name == flag).map OptionSpec.kind = some .flag
  letterless : ∀ spec ∈ specs, spec.name = flag → spec.letter = none
  plain : '=' ∉ flag.toList

instance (specs : List OptionSpec) (flag : String) : Decidable (IsFlag specs flag) :=
  decidable_of_iff ((specs.find? fun spec => spec.name == flag).map OptionSpec.kind = some .flag ∧
      (∀ spec ∈ specs, spec.name = flag → spec.letter = none) ∧ '=' ∉ flag.toList)
    ⟨fun ⟨found, letterless, plain⟩ => ⟨found, letterless, plain⟩,
      fun h => ⟨h.found, h.letterless, h.plain⟩⟩

theorem not_given_nil (option : String) : ¬ Given option [] := List.not_mem_nil

theorem not_given_hyphens (option : String) (rest : List String) :
    ¬ Given option ("--" :: rest) := by
  simp [Given]

theorem given_cons {option argument : String} (h : argument ≠ "--") (rest : List String) :
    Given option (argument :: rest) ↔ option = argument ∨ Given option rest := by
  simp [Given, h]

theorem looksLikeOption_hyphens : looksLikeOption "--" = true := by
  simp [looksLikeOption]

theorem looksLikeOption_append (name : String) : looksLikeOption ("--" ++ name) = true := by
  have hne : "--" ++ name ≠ "-" := by
    intro h
    have hchars := congrArg String.toList h
    simp at hchars
  simp [looksLikeOption, hne]

theorem given_cons_of_not_option {name argument : String} (h : looksLikeOption argument = false)
    (rest : List String) : Given ("--" ++ name) (argument :: rest) ↔
      Given ("--" ++ name) rest := by
  have hhyphens : argument ≠ "--" := by
    rintro rfl
    rw [looksLikeOption_hyphens] at h
    cases h
  have hname : "--" ++ name ≠ argument := by
    rintro rfl
    rw [looksLikeOption_append] at h
    cases h
  rw [given_cons hhyphens, or_iff_right hname]

section Reading

variable {specs : List OptionSpec} {flag : String} {takesPath : Bool}
  {found after : ArgumentMatches} {pending : Option String}

theorem takeWhile_eq_self_of_dropWhile {text : List Char}
    (h : text.dropWhile (· != '=') = []) : text.takeWhile (· != '=') = text :=
  List.takeWhile_eq_self_iff.2 (List.dropWhile_eq_nil_iff.1 h)

theorem mem_of_dropWhile_eq_cons {text rest : List Char} {c : Char}
    (h : text.dropWhile (· != '=') = c :: rest) : '=' ∈ text := by
  have hhead := List.head?_dropWhile_not (· != '=') text
  have hc : c = '=' := by simpa [h] using hhead
  have hmem : c ∈ text := (List.dropWhile_sublist _).subset (h ▸ List.mem_cons_self)
  exact hc ▸ hmem

/-- An option in words brings in the flag if it is its name, and no other flag. -/
theorem mem_flags_readLong (hflag : IsFlag specs flag) {text : List Char}
    (h : readLong specs found text = .ok (after, pending)) :
    flag ∈ after.flags ↔ flag ∈ found.flags ∨ String.ofList text = flag := by
  dsimp only [readLong] at h
  split at h
  · cases h
  · rename_i spec hspec
    have hname : spec.name = String.ofList (text.takeWhile (· != '=')) := by
      simpa using List.find?_some hspec
    split at h
    · rename_i hdrop hkind
      rw [takeWhile_eq_self_of_dropWhile hdrop] at hname hspec
      have hother : String.ofList text ≠ flag := by
        intro heq
        have hfound := hflag.found
        rw [← heq, hspec, Option.map_some, hkind] at hfound
        cases hfound
      obtain ⟨rfl, -⟩ := Prod.mk.inj (Except.ok.inj h)
      rw [or_iff_left hother]
    · rename_i hdrop _
      rw [takeWhile_eq_self_of_dropWhile hdrop] at hname
      obtain ⟨next, hnext, hpair⟩ := map_eq_ok_iff.1 h
      obtain ⟨rfl, -⟩ := Prod.mk.inj hpair
      rw [ArgumentMatches.flags_addFlag hnext, List.mem_append, List.mem_singleton, hname,
        eq_comm (a := flag)]
    · rename_i hdrop _
      have hother : String.ofList text ≠ flag := by
        rintro rfl
        exact hflag.plain (by simpa using mem_of_dropWhile_eq_cons hdrop)
      obtain ⟨next, hnext, hpair⟩ := map_eq_ok_iff.1 h
      obtain ⟨rfl, -⟩ := Prod.mk.inj hpair
      rw [ArgumentMatches.flags_addValue hnext, or_iff_left hother]
    · cases h

/-- Letters behind a hyphen never bring in the flag. -/
theorem mem_flags_readLetters (hflag : IsFlag specs flag) {letters : List Char}
    (h : readLetters specs found letters = .ok (after, pending)) :
    flag ∈ after.flags ↔ flag ∈ found.flags := by
  induction letters generalizing found with
  | nil =>
      obtain ⟨rfl, -⟩ := Prod.mk.inj (Except.ok.inj h)
      exact Iff.rfl
  | cons letter rest ih =>
      unfold readLetters at h
      split at h
      · cases h
      · rename_i spec hspec
        have hletter : spec.letter = some letter := by simpa using List.find?_some hspec
        have hother : flag ≠ spec.name := by
          intro heq
          have hnone := hflag.letterless spec (List.mem_of_find?_eq_some hspec) heq.symm
          rw [hletter] at hnone
          cases hnone
        split at h
        · obtain ⟨rfl, -⟩ := Prod.mk.inj (Except.ok.inj h)
          exact Iff.rfl
        · obtain ⟨next, hnext, hpair⟩ := map_eq_ok_iff.1 h
          obtain ⟨rfl, -⟩ := Prod.mk.inj hpair
          rw [ArgumentMatches.flags_addValue hnext]
        · obtain ⟨next, hnext, hpair⟩ := map_eq_ok_iff.1 h
          obtain ⟨rfl, -⟩ := Prod.mk.inj hpair
          rw [ArgumentMatches.flags_addValue hnext]
        · split at h
          · cases h
          · rename_i next hnext
            rw [ih h, ArgumentMatches.flags_addFlag hnext, List.mem_append, List.mem_singleton,
              or_iff_left hother]

theorem mem_flags_readOptions (hflag : IsFlag specs flag) {argument : String}
    (h : readOptions specs found argument = .ok (after, pending)) :
    flag ∈ after.flags ↔ flag ∈ found.flags ∨ "--" ++ flag = argument := by
  unfold readOptions at h
  split at h
  · rename_i name hname
    have hargument : argument = "--" ++ String.ofList name := by
      rw [← String.toList_inj, hname]
      simp
    rw [mem_flags_readLong hflag h, hargument, String.append_right_inj, eq_comm (a := flag)]
  · rename_i hletters
    have hother : "--" ++ flag ≠ argument := by
      rintro rfl
      exact hletters flag.toList (by simp)
    rw [mem_flags_readLetters hflag h, or_iff_left hother]

/-- What one argument behind the command's name can be: a value or a path, the two hyphens
that end the options, or options. -/
theorem readCommand_cons {paths : Bool} {argument : String} {rest : List String}
    (h : readCommand specs takesPath paths found pending (argument :: rest) = .ok after) :
    (∃ next, next.flags = found.flags ∧ (paths = true ∨ looksLikeOption argument = false) ∧
        readCommand specs takesPath paths next none rest = .ok after) ∨
      (paths = false ∧ argument = "--" ∧
        readCommand specs takesPath true found none rest = .ok after) ∨
      (paths = false ∧ argument ≠ "--" ∧ ∃ next waiting,
        readOptions specs found argument = .ok (next, waiting) ∧
        readCommand specs takesPath paths next waiting rest = .ok after) := by
  cases pending with
  | some name =>
      rw [readCommand] at h
      split at h
      · cases h
      · rename_i hlooks
        split at h
        · cases h
        · rename_i next hnext
          exact .inl ⟨next, ArgumentMatches.flags_addValue hnext,
            .inr (Bool.eq_false_iff.2 hlooks), h⟩
  | none =>
      rw [readCommand] at h
      split at h
      · rename_i hpath
        split at h
        · cases h
        · rename_i next hnext
          exact .inl ⟨next, ArgumentMatches.flags_addPath hnext, by simpa using hpath, h⟩
      · rename_i hpath
        have hpaths : paths = false := by
          cases paths with
          | false => rfl
          | true => simp at hpath
        split at h
        · rename_i hhyphens
          exact .inr (.inl ⟨hpaths, hhyphens, h⟩)
        · rename_i hhyphens
          split at h
          · cases h
          · rename_i next waiting hoptions
            exact .inr (.inr ⟨hpaths, hhyphens, next, waiting, hoptions, h⟩)

/-- Behind the command's name the flag is on if it was on before or is given. -/
theorem mem_flags_readCommand (hflag : IsFlag specs flag) {paths : Bool}
    {arguments : List String}
    (h : readCommand specs takesPath paths found pending arguments = .ok after) :
    flag ∈ after.flags ↔
      flag ∈ found.flags ∨ paths = false ∧ Given ("--" ++ flag) arguments := by
  induction arguments generalizing paths found pending with
  | nil =>
      rw [readCommand] at h
      split at h
      · cases h
      · obtain rfl := Except.ok.inj h
        simp [not_given_nil]
  | cons argument rest ih =>
      rcases readCommand_cons h with ⟨next, hflags, hargument, hrest⟩ |
        ⟨rfl, rfl, hrest⟩ | ⟨rfl, hhyphens, next, waiting, hoptions, hrest⟩
      · rw [ih hrest, hflags]
        rcases hargument with rfl | hlooks
        · simp
        · rw [given_cons_of_not_option hlooks]
      · rw [ih hrest]
        simp [not_given_hyphens]
      · rw [ih hrest, mem_flags_readOptions hflag hoptions, given_cons hhyphens]
        simp [or_assoc]

/-- What one argument before the command's name can be: the name itself, a value or options. -/
theorem readRoot_cons {argument : String} {rest behind : List String} {name : String}
    (h : readRoot specs found pending (argument :: rest) = .ok (after, name, behind)) :
    (looksLikeOption argument = false ∧ behind = rest) ∨
      ∃ next waiting, readRoot specs next waiting rest = .ok (after, name, behind) ∧
        (looksLikeOption argument = false ∨
          argument ≠ "--" ∧ readOptions specs found argument = .ok (next, waiting)) := by
  cases pending with
  | some option =>
      rw [readRoot] at h
      split at h
      · cases h
      · rename_i hlooks
        split at h
        · cases h
        · rename_i next hnext
          exact .inr ⟨next, none, h, .inl (Bool.eq_false_iff.2 hlooks)⟩
  | none =>
      rw [readRoot] at h
      split at h
      · rename_i hlooks
        obtain ⟨-, hpair⟩ := Prod.mk.inj (Except.ok.inj h)
        obtain ⟨-, rfl⟩ := Prod.mk.inj hpair
        exact .inl ⟨by simpa using hlooks, rfl⟩
      · split at h
        · cases h
        · rename_i hhyphens
          split at h
          · cases h
          · rename_i next waiting hoptions
            exact .inr ⟨next, waiting, h, .inr ⟨hhyphens, hoptions⟩⟩

/-- An option that is none of the known ones is refused. -/
theorem ne_of_readOptions (hnone : specs.find? (fun spec => spec.name == flag) = none)
    (hplain : '=' ∉ flag.toList) {argument : String}
    (h : readOptions specs found argument = .ok (after, pending)) :
    "--" ++ flag ≠ argument := by
  rintro rfl
  have hname : flag.toList.takeWhile (· != '=') = flag.toList := by
    rw [List.takeWhile_eq_self_iff]
    intro c hc
    exact bne_iff_ne.2 fun heq => hplain (heq ▸ hc)
  have hrefused : readOptions specs found ("--" ++ flag) = readLong specs found flag.toList := by
    simp [readOptions]
  rw [hrefused, readLong, hname, String.ofList_toList, hnone] at h
  cases h

/-- A flag of the command is not given before the command's name. -/
theorem given_readRoot (hnone : specs.find? (fun spec => spec.name == flag) = none)
    (hplain : '=' ∉ flag.toList) {arguments behind : List String} {name : String}
    (h : readRoot specs found pending arguments = .ok (after, name, behind)) :
    Given ("--" ++ flag) arguments ↔ Given ("--" ++ flag) behind := by
  induction arguments generalizing found pending with
  | nil => cases h
  | cons argument rest ih =>
      rcases readRoot_cons h with ⟨hlooks, rfl⟩ |
        ⟨next, waiting, hrest, hlooks | ⟨hhyphens, hoptions⟩⟩
      · exact given_cons_of_not_option hlooks _
      · rw [given_cons_of_not_option hlooks, ih hrest]
      · rw [given_cons hhyphens, or_iff_right (ne_of_readOptions hnone hplain hoptions), ih hrest]

/-- A path that is required is there when the reading ends. -/
theorem exists_path_of_readCommand {paths : Bool} {arguments : List String}
    (htakes : takesPath = true)
    (h : readCommand specs takesPath paths found pending arguments = .ok after) :
    ∃ path, after.value? "path" = some path := by
  induction arguments generalizing paths found pending with
  | nil =>
      rw [readCommand, htakes] at h
      split at h
      · cases h
      · rename_i hthere
        obtain rfl := Except.ok.inj h
        exact Option.isSome_iff_exists.1 (by simpa using (Bool.or_eq_false_iff.1
          (Bool.eq_false_iff.2 hthere)).2)
  | cons argument rest ih =>
      rcases readCommand_cons h with ⟨next, -, -, hrest⟩ | ⟨-, -, hrest⟩ |
        ⟨-, -, next, waiting, -, hrest⟩ <;> exact ih hrest

end Reading

theorem value?_own {command : CommandSpec} {behind : ArgumentMatches} {name value : String}
    (h : behind.value? name = some value) : (own command behind).value? name = some value := by
  unfold ArgumentMatches.value? at h ⊢
  obtain ⟨entry, hentry, rfl⟩ := Option.map_eq_some_iff.1 h
  simp [own, List.find?_append, hentry]

/-- Arguments that are accepted have a part before the command's name and one behind it. -/
theorem exists_of_bundled {interface : Interface} {arguments : List String} {found : Arguments}
    (h : bundled interface arguments = .ok found) :
    ∃ before rest command behind,
      readRoot (rootOptions interface) {} none arguments = .ok (before, found.command, rest) ∧
      interface.commands.find? (fun command => command.name == found.command) = some command ∧
      readCommand (optionsOf interface command) command.takesPath false {} none rest =
        .ok behind ∧
      found.own = own command behind := by
  unfold bundled at h
  obtain ⟨⟨before, name, rest⟩, hroot, h⟩ := bind_eq_ok_iff.1 h
  dsimp only at h
  split at h
  · cases h
  · split at h
    · cases h
    · rename_i command hcommand
      obtain ⟨behind, hbehind, h⟩ := bind_eq_ok_iff.1 h
      obtain rfl := Except.ok.inj h
      exact ⟨before, rest, command, behind, hroot, hcommand, hbehind, rfl⟩

/-- What makes the flags of a declaration ones that are written in one way only. -/
structure HasPlainFlags (interface : Interface) : Prop where
  distinct : ∀ command ∈ interface.commands,
    interface.commands.find? (fun other => other.name == command.name) = some command
  flag : ∀ command ∈ interface.commands, ∀ option ∈ command.options,
    option.kind = .flag → option.letter = none → IsFlag (optionsOf interface command) option.name
  unknown : ∀ command ∈ interface.commands, ∀ option ∈ command.options,
    option.kind = .flag → option.letter = none →
      (rootOptions interface).find? (fun spec => spec.name == option.name) = none

theorem isLawful_bundled {interface : Interface} (hplain : HasPlainFlags interface) :
    IsLawful bundled interface where
  path h command hcommand hname htakes := by
    obtain ⟨before, rest, other, behind, -, hother, hbehind, hown⟩ := exists_of_bundled h
    rw [← hname, hplain.distinct command hcommand] at hother
    obtain rfl := Option.some.inj hother
    obtain ⟨path, hpath⟩ := exists_path_of_readCommand htakes hbehind
    exact ⟨path, by rw [hown, value?_own hpath]⟩
  flag h command hcommand hname option hoption hkind hletter := by
    obtain ⟨before, rest, other, behind, hroot, hother, hbehind, hown⟩ := exists_of_bundled h
    rw [← hname, hplain.distinct command hcommand] at hother
    obtain rfl := Option.some.inj hother
    have hflag := hplain.flag command hcommand option hoption hkind hletter
    have hnone := hplain.unknown command hcommand option hoption hkind hletter
    rw [hown, ArgumentMatches.hasFlag_eq_true_iff, own, mem_flags_readCommand hflag hbehind,
      given_readRoot hnone hflag.plain hroot]
    simp

end ArgumentReader

namespace Program

theorem isLawful_bundled : ArgumentReader.bundled.IsLawful interface :=
  ArgumentReader.isLawful_bundled ⟨by decide, by decide, by decide⟩

end Program

end StyledMarkup
