import ControlCodegen.Project.Overrides
import ControlCodegen.Proofs.Project.Load

/-!
# `Project.Overrides`: what variables make of a project

* `Setting`, `Flag` : the settings that have a variable each, with how a variable is read.
* `Setting.comesTo`, `becomes_comesTo` : what a setting comes to, whatever the variables are.
* `Setting.asked`, `becomes_asked_iff` : a variable that can be read overrides its setting and no other variable does,
  unless one of a truth value cannot be read and the project says something else than what is usual.
-/

namespace ControlCodegen.Project

set_option autoImplicit false

/-! ## Settings -/

/-- A truth value that a variable overrides. -/
inductive Flag where
  | makefile
  | testFile
  | singlePrecision
  | logFiles

namespace Flag

/-- What it is called behind the prefix of its variable. -/
def name : Flag → String
  | makefile => "OPTIONS_GENERATE_MAKEFILE"
  | testFile => "OPTIONS_GENERATE_TEST_FILE"
  | singlePrecision => "OPTIONS_USE_SINGLE_PRECISION"
  | logFiles => "LOGGING_LOCAL_ENABLED"

/-- Its value in a project file that does not give one. -/
def standard : Flag → Bool
  | makefile | testFile => true
  | singlePrecision | logFiles => false

def get : Flag → Project → Bool
  | makefile, p => p.options.makefile
  | testFile, p => p.options.testFile
  | singlePrecision, p => p.options.singlePrecision
  | logFiles, p => p.logging.enabled

def put : Flag → Bool → Project → Project
  | makefile, value, p => { p with options.makefile := value }
  | testFile, value, p => { p with options.testFile := value }
  | singlePrecision, value, p => { p with options.singlePrecision := value }
  | logFiles, value, p => { p with logging.enabled := value }

end Flag

/-- A setting that a variable overrides. -/
inductive Setting where
  | logLevel
  | folder
  | realType
  | precision
  | moduleName
  | logFolder
  | flag (f : Flag)

namespace Setting

def all : List Setting :=
  [logLevel, folder, realType, precision, moduleName, logFolder, flag .makefile, flag .testFile, flag .singlePrecision,
    flag .logFiles]

/-- The type of its values. -/
def Value : Setting → Type
  | logLevel | folder | realType | logFolder => String
  | precision => Nat
  | moduleName => ModuleName
  | flag _ => Bool

/-- The variable that overrides it. -/
def variableName : Setting → String
  | logLevel => variableOf "APPLICATION_LOG_LEVEL"
  | folder => variableOf "OUTPUT_FOLDER"
  | realType => variableOf "OUTPUT_REAL_TYPE"
  | precision => variableOf "OUTPUT_PRECISION"
  | moduleName => variableOf "OPTIONS_MODULE_NAME"
  | logFolder => variableOf "LOGGING_LOCAL_PATH"
  | flag f => variableOf f.name

/-- The value that a text spells. -/
def read? : (s : Setting) → String → Option s.Value
  | logLevel, text | folder, text | realType, text | logFolder, text => some text
  | precision, text => readWhole? text
  | moduleName, text => (ModuleName.ofString text).toOption
  | flag _, text => readFlag? text

def get : (s : Setting) → Project → s.Value
  | logLevel, p => p.application.logLevel
  | folder, p => p.output.folder
  | realType, p => p.output.realType
  | precision, p => p.output.precision
  | moduleName, p => p.options.moduleName
  | logFolder, p => p.logging.folder
  | flag f, p => f.get p

def put : (s : Setting) → s.Value → Project → Project
  | logLevel, value, p => { p with application.logLevel := value }
  | folder, value, p => { p with output.folder := value }
  | realType, value, p => { p with output.realType := value }
  | precision, value, p => { p with output.precision := value }
  | moduleName, value, p => { p with options.moduleName := value }
  | logFolder, value, p => { p with logging.folder := value }
  | flag f, value, p => f.put value p

/-- What it comes to if its variable has a value that cannot be read. -/
def fallback : (s : Setting) → Project → s.Value
  | flag f, _ => f.standard
  | logLevel, p => get logLevel p
  | folder, p => get folder p
  | realType, p => get realType p
  | precision, p => get precision p
  | moduleName, p => get moduleName p
  | logFolder, p => get logFolder p

/-- What it comes to. -/
def comesTo (env : Environment) (p : Project) (s : Setting) : s.Value :=
  match env s.variableName with
  | some text => (s.read? text).getD (s.fallback p)
  | none => s.get p

/-- The value of its variable, if there is one that can be read, or else what the project says. -/
def asked (env : Environment) (p : Project) (s : Setting) : s.Value :=
  ((env s.variableName).bind s.read?).getD (s.get p)

end Setting

/-- A project with the settings of another one put back. -/
def restore (p q : Project) : Project := Setting.all.foldl (fun q s => s.put (s.get p) q) q

/-! ## Overrides -/

/-- A module name is asked for that is none. -/
def Misnamed (env : Environment) : Prop :=
  ∃ text, env Setting.moduleName.variableName = some text ∧ isIdentifier text = false

/-- What becomes of a project whose settings are to have certain values. -/
structure Becomes (env : Environment) (p : Project) (value : (s : Setting) → s.Value) (result : Except Cause Project) :
    Prop where
  /-- Only a module name can be refused. -/
  fails_iff : (∃ c, result = .error c) ↔ Misnamed env
  settings : ∀ p', result = .ok p' → ∀ s : Setting, s.get p' = value s
  /-- Nothing else has changed: with its settings put back the project is as it was. -/
  others : ∀ p', result = .ok p' → restore p p' = p

section

variable {env : Environment} {p p' : Project} {text : String}

theorem not_isBlank_of_isIdentifierHead {c : Char} (h : isIdentifierHead c = true) : Text.isBlank c = false := by
  have hbounds : 65 ≤ c.toNat ∧ c.toNat ≤ 90 ∨ 97 ≤ c.toNat ∧ c.toNat ≤ 122 ∨ c.toNat = 95 := by
    delta isIdentifierHead Char.isAlpha Char.isUpper Char.isLower at h
    simp only [Bool.or_eq_true, Bool.and_eq_true, decide_eq_true_eq] at h
    rcases h with (h | h) | rfl
    · exact .inl h
    · exact .inr (.inl h)
    · exact .inr (.inr rfl)
  rw [Bool.eq_false_iff]
  intro hblank
  simp only [Text.isBlank, Text.blankRanges, List.any_cons, List.any_nil, Bool.or_false, Bool.or_eq_true,
    Bool.and_eq_true, decide_eq_true_eq] at hblank
  omega

theorem isIdentifier_of_allBlank (h : Text.allBlank text = true) : isIdentifier text = false := by
  unfold Text.allBlank at h
  unfold isIdentifier
  cases hlist : text.toList with
  | nil => rfl
  | cons c cs =>
    rw [hlist, List.all_cons, Bool.and_eq_true] at h
    have hhead : isIdentifierHead c = false := Bool.eq_false_iff.2 fun hc => by
      rw [not_isBlank_of_isIdentifierHead hc] at h
      exact absurd h.1 Bool.false_ne_true
    dsimp only
    rw [hhead, Bool.false_and]

/-- A text names a module if and only if it is an identifier. -/
theorem exists_ofString_eq_error_iff : (∃ e, ModuleName.ofString text = .error e) ↔ isIdentifier text = false := by
  unfold ModuleName.ofString
  by_cases hblank : Text.allBlank text = true
  · rw [if_pos hblank]
    exact iff_of_true ⟨_, rfl⟩ (isIdentifier_of_allBlank hblank)
  · rw [if_neg hblank]
    by_cases hvalid : isIdentifier text = true
    · rw [dif_pos hvalid]
      exact iff_of_false (fun h => nomatch h.choose_spec) (by rw [hvalid]; decide)
    · rw [dif_neg hvalid]
      exact iff_of_true ⟨_, rfl⟩ (Bool.eq_false_iff.2 hvalid)

theorem override_of_misnamed (h : Misnamed env) : ∃ c, p.override env = .error c := by
  obtain ⟨text, htext, hname⟩ := h
  obtain ⟨e, he⟩ := exists_ofString_eq_error_iff.2 hname
  refine ⟨.invalidModuleName e, ?_⟩
  unfold override overrideOptions
  rw [show env (variableOf "OPTIONS_MODULE_NAME") = some text from htext]
  dsimp only
  rw [he]
  rfl

/-- The project with the settings that the variables make, if no bad module name is asked for. -/
def overridden (env : Environment) (p : Project) : Project :=
  { p with
    application := overrideApplication env p.application
    options := { p.options with
      moduleName := Setting.moduleName.comesTo env p
      makefile := overrideFlag env "OPTIONS_GENERATE_MAKEFILE" true p.options.makefile
      testFile := overrideFlag env "OPTIONS_GENERATE_TEST_FILE" true p.options.testFile
      singlePrecision := overrideFlag env "OPTIONS_USE_SINGLE_PRECISION" false p.options.singlePrecision }
    output := overrideOutput env p.output
    logging := overrideLogging env p.logging }

theorem override_of_not_misnamed (h : ¬Misnamed env) : p.override env = .ok (p.overridden env) := by
  have hname : overrideOptions env p.options = .ok (p.overridden env).options := by
    unfold overrideOptions overridden Setting.comesTo Setting.variableName
    cases htext : env (variableOf "OPTIONS_MODULE_NAME") with
    | none => rfl
    | some text =>
      cases hname : ModuleName.ofString text with
      | error e => exact absurd ⟨text, htext, exists_ofString_eq_error_iff.1 ⟨e, hname⟩⟩ h
      | ok m =>
        unfold Setting.read?
        dsimp only
        rw [hname]
        rfl
  unfold override
  rw [hname]
  rfl

/-- A flag is overridden with its own standard value. -/
theorem overrideFlag_eq (env : Environment) (p : Project) (f : Flag) :
    overrideFlag env f.name f.standard (f.get p) = (Setting.flag f).comesTo env p := by
  unfold overrideFlag Setting.comesTo Setting.variableName
  cases env (variableOf f.name) <;> rfl

theorem get_overridden (env : Environment) (p : Project) (s : Setting) :
    s.get (p.overridden env) = s.comesTo env p := by
  cases s with
  | moduleName => rfl
  | logLevel | folder | realType | precision | logFolder =>
    unfold Setting.comesTo Setting.variableName
    dsimp only [Setting.get, overridden, overrideApplication, overrideOutput, overrideLogging]
    split
    · rename_i htext
      rw [htext]
      rfl
    · rename_i htext
      rw [htext]
      rfl
  | flag f =>
    rw [← overrideFlag_eq]
    cases f <;> rfl

theorem restore_overridden (env : Environment) (p : Project) : restore p (p.overridden env) = p := by
  simp only [restore, Setting.all, List.foldl_cons, List.foldl_nil, Setting.put, Setting.get, Flag.put, Flag.get,
    overridden, overrideApplication, overrideOutput, overrideLogging]

/-- What becomes of a project, whatever the variables are. -/
theorem becomes_comesTo (env : Environment) (p : Project) :
    Becomes env p (fun s => s.comesTo env p) (p.override env) := by
  by_cases h : Misnamed env
  · obtain ⟨c, hc⟩ := override_of_misnamed (p := p) h
    rw [hc]
    exact ⟨iff_of_true ⟨c, rfl⟩ h, (fun _ hp' => nomatch hp'), fun _ hp' => nomatch hp'⟩
  · rw [override_of_not_misnamed h]
    refine ⟨iff_of_false (fun hc => nomatch hc.choose_spec) h, fun p' hp' => ?_, fun p' hp' => ?_⟩
    · obtain rfl := Except.ok.inj hp'
      exact get_overridden env p
    · obtain rfl := Except.ok.inj hp'
      exact restore_overridden env p

/-- A setting comes to what is asked, unless it is a truth value whose variable cannot be read. -/
theorem comesTo_eq_asked_iff (env : Environment) (p : Project) (s : Setting) :
    s.comesTo env p = s.asked env p ↔
      ∀ f, s = .flag f → ∀ text, env (variableOf f.name) = some text → readFlag? text = none →
        f.get p = f.standard := by
  unfold Setting.comesTo Setting.asked
  cases htext : env s.variableName with
  | none =>
    refine iff_of_true rfl ?_
    rintro f rfl text htext'
    cases htext.symm.trans htext'
  | some text =>
    rw [Option.bind_some]
    dsimp only
    cases hread : s.read? text with
    | some value =>
      refine iff_of_true rfl ?_
      rintro f rfl text' htext' hread'
      obtain rfl := Option.some.inj (htext.symm.trans htext')
      cases hread.symm.trans hread'
    | none =>
      rw [Option.getD_none, Option.getD_none]
      cases s with
      | flag f =>
        constructor
        · rintro h _ ⟨⟩ text' htext' hread'
          exact h.symm
        · exact fun h => (h f rfl text htext hread).symm
      | _ => exact iff_of_true rfl fun f hf => nomatch hf

end

/-- A variable that can be read overrides its setting, one that cannot leaves it alone, and only a bad module name is
refused. This is so unless a truth value cannot be read that is not the standard one in the project. -/
theorem becomes_asked_iff (env : Environment) (p : Project) :
    Becomes env p (fun s => s.asked env p) (p.override env) ↔
      Misnamed env ∨ ∀ (f : Flag) (text : String), env (variableOf f.name) = some text → readFlag? text = none →
        f.get p = f.standard := by
  have hlaw := becomes_comesTo env p
  constructor
  · intro h
    refine Classical.or_iff_not_imp_left.2 fun hname f text htext hread => ?_
    have hok := override_of_not_misnamed (p := p) hname
    have heq := (hlaw.settings _ hok (.flag f)).symm.trans (h.settings _ hok (.flag f))
    exact (comesTo_eq_asked_iff env p (.flag f)).1 heq f rfl text htext hread
  · intro h
    refine ⟨hlaw.fails_iff, fun p' hp' s => ?_, hlaw.others⟩
    rcases h with hname | h
    · obtain ⟨c, hc⟩ := hlaw.fails_iff.2 hname
      cases hc.symm.trans hp'
    · exact (hlaw.settings p' hp' s).trans ((comesTo_eq_asked_iff env p s).2 fun f _ => h f)

/-- A project without a makefile. -/
def withoutMakefile : Project where
  problem := { horizon := 20, dimensions := { nx := 4, nu := 1 } }
  options := { makefile := false }

/-- A variable that says neither yes nor no to a makefile. -/
def undecided : Environment := .ofList [("OCPGEN_OPTIONS_GENERATE_MAKEFILE", "off")]

/-- The makefile is made all the same. -/
theorem not_becomes_asked_undecided :
    ¬Becomes undecided withoutMakefile (fun s => s.asked undecided withoutMakefile)
      (withoutMakefile.override undecided) := by
  intro h
  have hname : ¬Misnamed undecided := by
    rintro ⟨text, htext, -⟩
    have hnone : undecided Setting.moduleName.variableName = none := by decide
    cases hnone.symm.trans htext
  have hasked := h.settings _ (override_of_not_misnamed hname) (.flag .makefile)
  have hcomes := get_overridden undecided withoutMakefile (.flag .makefile)
  have htrue : (Setting.flag .makefile).comesTo undecided withoutMakefile = true := by rfl
  have hfalse : (Setting.flag .makefile).asked undecided withoutMakefile = false := by rfl
  rw [hcomes, htrue, hfalse] at hasked
  cases hasked

end ControlCodegen.Project
