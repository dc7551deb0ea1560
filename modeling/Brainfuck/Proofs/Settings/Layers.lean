import Brainfuck.CommandLine.Launch
import Brainfuck.Proofs.Settings.ConfigFile
import Brainfuck.Proofs.Text.Numeral

/-!
# Layers of settings

Settings are put together from layers: the flags of a command, any number of environments, a
configuration file, and the values that hold where nothing is said. Each field of the settings has
the value of the first layer that says something about it, counted from the flags down and from the
last environment to the first, and it does not matter what the layers say about the other fields.

## What a layer says

A layer that is put on top of others may be silent about a field. An environment is silent about a
field if there is no variable for it, or if the variable is not set or cannot be read; then it
neither changes the field nor hides what is below. A configuration file is never silent, since it
stands for the values where it says nothing itself.
-/

namespace Brainfuck

open Text

namespace Settings

/-! ## What is said about a field -/

/-- What an environment says about a field; `var` gives the value of a variable that is set. -/
def Field.saidIn (var : String → Option String) : (f : Field) → Option f.Value
  | delay => ((var delayVariable).bind fun v ↦ delay? (trim v.toList)).map some
  | input => none
  | output => none
  | policy => (var policyVariable).bind fun v ↦ policy? v.toList

/-- What flags say about a field. -/
def Flags.said (flags : Flags) : (f : Field) → Option f.Value
  | .delay => flags.delay.map some
  | .input => if flags.noInput then some false else none
  | .output => if flags.noOutput then some false else none
  | .policy => flags.policy

theorem get_standard (f : Field) : get {} f = f.standard := by
  cases f <;> rfl

theorem get_withEnvironment (s : Settings) (var : String → Option String) (f : Field) :
    (s.withEnvironment var).get f = (f.saidIn var).getD (s.get f) := by
  cases f with
  | delay =>
    have hdelay : ∀ said : Option UInt64, said.or s.delay = (said.map some).getD s.delay := by
      rintro (_ | ms) <;> rfl
    exact hdelay _
  | input => rfl
  | output => rfl
  | policy => rfl

theorem get_withFlags (s : Settings) (flags : Flags) (f : Field) :
    (s.withFlags flags).get f = (flags.said f).getD (s.get f) := by
  obtain ⟨delay, policy, noInput, noOutput⟩ := flags
  cases f with
  | delay => cases delay <;> rfl
  | input => cases noInput <;> simp [get, withFlags, Flags.said]
  | output => cases noOutput <;> simp [get, withFlags, Flags.said]
  | policy => rfl

/-- The last environment that says something about a field counts. -/
theorem get_foldl_withEnvironment (s : Settings) (vars : List (String → Option String))
    (f : Field) :
    (vars.foldl withEnvironment s).get f = ((vars.filterMap f.saidIn).getLast?).getD (s.get f) := by
  induction vars generalizing s with
  | nil => rfl
  | cons var vars ih =>
    rw [List.foldl_cons, ih, get_withEnvironment, List.filterMap_cons]
    cases f.saidIn var with
    | none => rfl
    | some v =>
      rw [List.getLast?_cons]
      cases (vars.filterMap f.saidIn).getLast? <;> rfl

/-- What an environment has said it need not say again. -/
theorem withEnvironment_withEnvironment (s : Settings) (var : String → Option String) :
    (s.withEnvironment var).withEnvironment var = s.withEnvironment var := by
  refine ext_get fun f ↦ ?_
  rw [get_withEnvironment, get_withEnvironment]
  cases f.saidIn var <;> rfl

/-! ## Variables that can be read -/

section

variable {var : String → Option String}

theorem saidIn_delay_eq_some_iff {ms : UInt64} :
    Field.delay.saidIn var = some (some ms) ↔
      ∃ v, var delayVariable = some v ∧ Numeral.Spells ms.toNat (trim v.toList) := by
  have hread : ∀ cs : List Char, delay? cs = some ms ↔ Numeral.Spells ms.toNat cs := by
    intro cs
    rw [← Numeral.parse_eq_ok_iff, delay?]
    cases Numeral.parse cs <;> simp [Except.toOption]
  simp only [Field.saidIn, Option.map_eq_some_iff, Option.some.injEq, exists_eq_right,
    Option.bind_eq_some_iff, hread]

theorem saidIn_policy_eq_some_iff {k : FailurePolicy} :
    Field.policy.saidIn var = some k ↔
      ∃ v, var policyVariable = some v ∧ lower (trim v.toList) = k.keyword := by
  have hread : ∀ cs : List Char, policy? cs = some k ↔ lower (trim cs) = k.keyword := by
    intro cs
    rw [← FailurePolicy.parse_eq_ok_iff, policy?]
    cases FailurePolicy.parse cs <;> simp [Except.toOption]
  simp only [Field.saidIn, Option.bind_eq_some_iff, hread]

end

/-! ## All layers together -/

/-- **Precedence.** Let settings be resolved from flags, environments and a configuration file, if
there is one. Each field has the value in the flags, or else the one in the last environment that
says something about it, or else the one in the file, or else the one that holds where nothing is
said. An environment says something about the pause if its variable is a numeral of a word, but for
blanks around it, and about the policy if its variable is the name of a policy. Where it says
nothing it changes nothing, it never says anything about the input and the output, and it can be
applied again without effect. A session resolves its settings in this way, with one environment. -/
theorem first_layer_that_speaks_decides (config : Option String)
    (vars : List (String → Option String)) (flags : Flags) :
    let file := (config.map fun text ↦ ofConfig text.toList).getD {}
    let s := (vars.foldl withEnvironment file).withFlags flags
    (∀ f : Field, s.get f =
      ((flags.said f).or (vars.filterMap f.saidIn).getLast?).getD
        ((config.map fun text ↦ (ofConfig text.toList).get f).getD f.standard)) ∧
      (∀ var (ms : UInt64), Field.delay.saidIn var = some (some ms) ↔
        ∃ v, var "BFVM_DELAY_MS" = some v ∧ Numeral.Spells ms.toNat (trim v.toList)) ∧
      (∀ var k, Field.policy.saidIn var = some k ↔
        ∃ v, var "BFVM_IO_POLICY" = some v ∧ lower (trim v.toList) = k.keyword) ∧
      (∀ (t : Settings) (var : String → Option String) (f : Field),
        f.saidIn var = none → (t.withEnvironment var).get f = t.get f) ∧
      (∀ (t : Settings) (var : String → Option String),
        (t.withEnvironment var).input = t.input ∧ (t.withEnvironment var).output = t.output ∧
          (t.withEnvironment var).withEnvironment var = t.withEnvironment var) ∧
      ∀ var, vars = [var] → CommandLine.resolveSettings config var flags = s := by
  intro file s
  have hfile : ∀ f, file.get f =
      (config.map fun text ↦ (ofConfig text.toList).get f).getD f.standard := by
    intro f
    cases hconfig : config with
    | none => simp [file, hconfig, get_standard]
    | some text => simp [file, hconfig]
  refine ⟨fun f ↦ ?_, fun _ _ ↦ saidIn_delay_eq_some_iff, fun _ _ ↦ saidIn_policy_eq_some_iff,
    fun t var f hsilent ↦ ?_, fun t var ↦ ⟨rfl, rfl, withEnvironment_withEnvironment t var⟩, ?_⟩
  · rw [get_withFlags, get_foldl_withEnvironment, hfile]
    cases flags.said f <;> rfl
  · rw [get_withEnvironment, hsilent, Option.getD_none]
  · rintro var rfl
    rfl

/-- The flags take the output away and leave the rest to the other layers. The last environment has
no pause that can be read, so the one in front of it counts, and it has the policy back from the one
that the first environment and the file ask for. -/
theorem first_layer_that_speaks_decides_unreadable :
    let config := some "[run]\ndelay_ms = 25\ninput = no\nio_policy = halt"
    let first : String → Option String :=
      fun k ↦ [("BFVM_DELAY_MS", " +3\t"), ("BFVM_IO_POLICY", "halt")].lookup k
    let second : String → Option String :=
      fun k ↦ [("BFVM_DELAY_MS", "18446744073709551616"), ("BFVM_IO_POLICY", " REPORT")].lookup k
    let flags : Flags := { noOutput := true }
    let s := ([first, second].foldl withEnvironment
      ((config.map fun text ↦ ofConfig text.toList).getD {})).withFlags flags
    s = ⟨some 3, false, false, .report⟩ := by
  intro config first second flags s
  obtain ⟨hget, -⟩ := first_layer_that_speaks_decides config [first, second] flags
  refine ext_get fun f ↦ (hget f).trans ?_
  cases f with
  | delay => decide +kernel
  | input => decide +kernel
  | output => decide +kernel
  | policy => decide +kernel

end Settings

end Brainfuck
