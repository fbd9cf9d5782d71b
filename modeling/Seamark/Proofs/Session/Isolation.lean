import Mathlib
import Seamark.Proofs.Table
import Seamark.Session

/-!
# What the compilers of a session share

The compilers of a session have one thing in common, the shared Morse table, and only those without
a table of their own look at it.  So a compiler with its own table is settled when it is made: of
what happens later only the loss of its own rules can be seen in its timelines.  A compiler without
a table sees the latest registration of every character, but only in Morse lights, and taking a rule
from one compiler is seen by no other one.

All of this is about runs: what is compared are the last answers of two runs, or of a run and a
compiler on its own.
-/

namespace Seamark

namespace Table

variable {β : Type}

/-- A table with distinct keys that is written over another one hides what that one has for its
keys. -/
lemma get?_update (t other : Table β) (hother : other.keys.Nodup) (key : String) :
    (t.update other).get? key = (other.get? key).or (t.get? key) := by
  obtain ⟨entries⟩ := other
  induction entries generalizing t with
  | nil => rfl
  | cons entry entries ih =>
    obtain ⟨hnew, hrest⟩ := List.nodup_cons.mp hother
    show ((t.set entry.1 entry.2).update ⟨entries⟩).get? key = _
    rw [ih _ hrest, get?_set, get?_mk_cons]
    by_cases hkey : entry.1 = key
    · -- no later entry is about this key
      have hnone : (⟨entries⟩ : Table β).get? key = none := by
        rw [← hkey, Option.eq_none_iff_forall_ne_some]
        exact fun value hvalue => hnew ((mem_keys_iff _ _).mpr ⟨value, hvalue⟩)
      simp [hkey, hnone]
    · simp [hkey, Ne.symm hkey]

end Table

namespace Compiler

variable {α : Type}

/-- A compiler after the rule of a type was taken from it, if it had one. -/
def deprived (type : LightType) (c : Compiler α) : Compiler α :=
  (c.dropRule type).getD c

/-- A compiler without a table of its own. -/
def tableless (c : Compiler α) : Compiler α := { c with table := none }

/-- A compiler after the rules of some types were taken from it. -/
def deprivedOf (types : List LightType) (c : Compiler α) : Compiler α :=
  types.foldl (fun c type => c.deprived type) c

lemma table_deprived (type : LightType) (c : Compiler α) : (c.deprived type).table = c.table := by
  unfold deprived dropRule
  split_ifs <;> rfl

/-- A rule that is taken from a compiler leaves its table alone, whatever this is. -/
lemma deprived_withTable (type : LightType) (c : Compiler α) (table : Option (Table String)) :
    ({ c with table := table } : Compiler α).deprived type =
      { c.deprived type with table := table } := by
  unfold deprived dropRule
  dsimp only
  split_ifs <;> rfl

lemma table_deprivedOf (types : List LightType) (c : Compiler α) :
    (c.deprivedOf types).table = c.table := by
  induction types generalizing c with
  | nil => rfl
  | cons type types ih => exact (ih (c.deprived type)).trans (table_deprived type c)

lemma deprivedOf_withTable (types : List LightType) (c : Compiler α)
    (table : Option (Table String)) :
    ({ c with table := table } : Compiler α).deprivedOf types =
      { c.deprivedOf types with table := table } := by
  induction types generalizing c with
  | nil => rfl
  | cons type types ih =>
    show (({ c with table := table } : Compiler α).deprived type).deprivedOf types = _
    rw [deprived_withTable]
    exact ih (c.deprived type)

variable [Scalar α]

/-- Two tables that give every character the same code compile to the same. -/
lemma applyRule_congr (c : Compiler α) {table table' : Table String}
    (h : ∀ character, table.get? character = table'.get? character) (s : Setup α) :
    c.applyRule table s = c.applyRule table' s := by
  have hlookup : ∀ character, Morse.lookup table character = Morse.lookup table' character := by
    intro character
    simp only [Morse.lookup, h]
  unfold applyRule morse
  simp only [hlookup]

/-- Only Morse lights need a table. -/
lemma applyRule_of_ne_morse (c : Compiler α) (table table' : Table String) {s : Setup α}
    (hs : s.subject.type ≠ .morse) :
    c.applyRule table s = c.tableless.applyRule table' s := by
  unfold applyRule
  split <;> first | rfl | contradiction

/-- A compiler with a table of its own does not look at the shared one. -/
lemma compile_of_isSome {c : Compiler α} (hc : c.table.isSome) (shared shared' : Table String)
    (light : Option (Characteristic α)) : c.compile shared light = c.compile shared' light := by
  obtain ⟨table, htable⟩ := Option.isSome_iff_exists.mp hc
  cases light with
  | none => rfl
  | some light => simp only [compile, tableWith, htable, Option.getD_some]

/-- A compiler compiles as it would with any table of its own that has the codes which it sees. -/
lemma compile_withTable (c : Compiler α) {shared table : Table String}
    (h : ∀ character, table.get? character = (c.tableWith shared).get? character)
    (shared' : Table String) (light : Option (Characteristic α)) :
    c.compile shared light =
      ({ c with table := some table } : Compiler α).compile shared' light := by
  cases light with
  | none => rfl
  | some light =>
    simp only [compile]
    split_ifs
    · rfl
    · exact applyRule_congr c (fun character => (h character).symm) _

/-- A light that is no Morse light is compiled alike with all tables. -/
lemma compile_of_ne_morse (c : Compiler α) (shared shared' : Table String)
    {light : Option (Characteristic α)} (hlight : ∀ l, light = some l → l.type ≠ .morse) :
    c.compile shared light = c.tableless.compile shared' light := by
  cases light with
  | none => rfl
  | some light =>
    simp only [compile]
    split_ifs with hrule hrule' hrule'
    · rfl
    · exact absurd hrule hrule'
    · exact absurd hrule' hrule
    · exact applyRule_of_ne_morse c _ _ (hlight light rfl)

end Compiler

namespace Session

/-! ### Runs -/

/-- The session after steps taken one after the other. -/
def after (s : Session) (steps : List Step) : Session :=
  steps.foldl (fun s step => (s.step step).2) s

@[simp] lemma after_nil (s : Session) : s.after [] = s := rfl

@[simp] lemma after_cons (s : Session) (step : Step) (steps : List Step) :
    s.after (step :: steps) = (s.step step).2.after steps := rfl

lemma after_append (s : Session) (steps steps' : List Step) :
    s.after (steps ++ steps') = (s.after steps).after steps' :=
  List.foldl_append

/-- The last answer of a run is the one to its last step. -/
lemma getLast?_run (s : Session) (steps : List Step) (step : Step) :
    (s.run (steps ++ [step])).getLast? = some ((s.after steps).step step).1 := by
  induction steps generalizing s with
  | nil => rfl
  | cons first steps ih =>
    have hne : (run (s.step first).2 (steps ++ [step])) ≠ [] := by
      intro hnil
      simpa [hnil] using ih (s.step first).2
    rw [List.cons_append, run, List.getLast?_cons_of_ne_nil hne, ih, after_cons]

/-! ### What a step changes -/

/-- The step makes a compiler of a name. -/
def Step.makes (name : String) : Step → Bool
  | .make other _ | .configure other _ => other = name
  | _ => false

/-- The step makes a compiler of a name with a table of its own. -/
def Step.makesOwn (name : String) : Step → Bool
  | .make other compiler => other = name && compiler.table.isSome
  | .configure other _ => other = name
  | _ => false

/-- The step takes a rule from the compiler of a name. -/
def Step.deprives (name : String) : Step → Bool
  | .dropRule other _ => other = name
  | _ => false

/-- The step registers a code. -/
def Step.registers : Step → Bool
  | .register .. => true
  | _ => false

/-- The code that steps registered last for a character. -/
def lastRegistered (character : String) : List Step → Option String
  | [] => none
  | .register other code :: steps =>
    (lastRegistered character steps).or (if other = character then some code else none)
  | _ :: steps => lastRegistered character steps

/-- The compiler of a name after a step. -/
lemma get?_step (s : Session) (step : Step) (name : String) :
    (s.step step).2.compilers.get? name = match step with
      | .make other compiler => if name = other then some compiler else s.compilers.get? name
      | .configure other config =>
        if name = other then some (config.compiler s.shared) else s.compilers.get? name
      | .dropRule other type =>
        if name = other then (s.compilers.get? name).map (·.deprived type)
        else s.compilers.get? name
      | _ => s.compilers.get? name := by
  cases step with
  | make other compiler => exact Table.get?_set _ _ _ _
  | configure other config => exact Table.get?_set _ _ _ _
  | dropRule other type =>
    simp only [step]
    cases hother : s.compilers.get? other with
    | none =>
      by_cases hname : name = other
      · simp [hname, hother]
      · simp [hname]
    | some compiler =>
      dsimp only
      cases hdrop : compiler.dropRule type with
      | none =>
        by_cases hname : name = other
        · simp [hname, hother, Compiler.deprived, hdrop]
        · simp [hname]
      | some rest =>
        dsimp only
        rw [Table.get?_set]
        by_cases hname : name = other
        · simp [hname, hother, Compiler.deprived, hdrop]
        · simp [hname]
  | compile who text =>
    simp only [step]
    split
    · rfl
    · split <;> rfl
  | register _ _ => rfl
  | lookup _ _ => rfl
  | characters => rfl

/-- A step that makes no compiler of a name and takes no rule from it leaves it as it is. -/
lemma get?_step_of_not {step : Step} {name : String} (hmakes : step.makes name = false)
    (hdeprives : step.deprives name = false) (s : Session) :
    (s.step step).2.compilers.get? name = s.compilers.get? name := by
  rw [get?_step]
  cases step with
  | make other _ => exact if_neg fun h => of_decide_eq_false hmakes h.symm
  | configure other _ => exact if_neg fun h => of_decide_eq_false hmakes h.symm
  | dropRule other _ => exact if_neg fun h => of_decide_eq_false hdeprives h.symm
  | _ => rfl

/-- The rules that steps take from the compiler of a name. -/
def rulesTaken (name : String) : List Step → List LightType
  | [] => []
  | .dropRule other type :: steps =>
    if other = name then type :: rulesTaken name steps else rulesTaken name steps
  | _ :: steps => rulesTaken name steps

/-- Steps that make no compiler of a name only take rules from it. -/
lemma get?_after_of_not_makes {name : String} {steps : List Step}
    (hsteps : ∀ step ∈ steps, step.makes name = false) (s : Session) :
    (s.after steps).compilers.get? name =
      (s.compilers.get? name).map (·.deprivedOf (rulesTaken name steps)) := by
  induction steps generalizing s with
  | nil => exact Option.map_id'.symm
  | cons first steps ih =>
    have hfirst := hsteps first (by simp)
    rw [after_cons, ih fun step hstep => hsteps step (List.mem_cons_of_mem _ hstep)]
    cases first with
    | dropRule other type =>
      rw [get?_step]
      by_cases hname : name = other
      · simp only [hname, if_true, rulesTaken, Option.map_map]
        rfl
      · simp only [hname, Ne.symm hname, if_false, rulesTaken]
    | _ => rw [get?_step_of_not hfirst rfl]; rfl

/-- What is left of the compiler of a name when a rule is taken from it does not depend on the
rest of the session. -/
lemma get?_step_of_deprives {step : Step} {name : String} (hdeprives : step.deprives name)
    {s s' : Session} (h : s.compilers.get? name = s'.compilers.get? name) :
    (s.step step).2.compilers.get? name = (s'.step step).2.compilers.get? name := by
  rw [get?_step, get?_step]
  cases step with
  | dropRule other type => simp only [h]
  | _ => cases hdeprives

/-- A compiler that is made depends on the shared table only. -/
lemma get?_step_of_makes {step : Step} {name : String} (hmakes : step.makes name) {s s' : Session}
    (h : s.shared = s'.shared) :
    (s.step step).2.compilers.get? name = (s'.step step).2.compilers.get? name := by
  rw [get?_step, get?_step]
  cases step with
  | make other _ =>
    obtain rfl : other = name := of_decide_eq_true hmakes
    simp only [if_true]
  | configure other _ =>
    obtain rfl : other = name := of_decide_eq_true hmakes
    simp only [if_true, h]
  | _ => cases hmakes

/-- The shared table after a step. -/
lemma shared_step (s : Session) (step : Step) :
    (s.step step).2.shared = match step with
      | .register character code => s.shared.set character code
      | _ => s.shared := by
  cases step with
  | dropRule other type =>
    simp only [step]
    split
    · rfl
    · split <;> rfl
  | compile who text =>
    simp only [step]
    split
    · rfl
    · split <;> rfl
  | register _ _ => rfl
  | lookup _ _ => rfl
  | characters => rfl
  | make _ _ => rfl
  | configure _ _ => rfl

/-- The shared table has the latest registration of every character. -/
lemma get?_shared_after (s : Session) (steps : List Step) (character : String) :
    (s.after steps).shared.get? character =
      (lastRegistered character steps).or (s.shared.get? character) := by
  induction steps generalizing s with
  | nil => rfl
  | cons first steps ih =>
    rw [after_cons, ih, shared_step]
    cases first with
    | register other code =>
      simp only [lastRegistered, Table.get?_set]
      by_cases hother : other = character
      · cases lastRegistered character steps <;> simp [hother]
      · simp [hother, Ne.symm hother]
    | _ => rfl

/-! ### Answers -/

/-- The answer that a result of compiling gives. -/
def answerOf : Except CompileError (Timeline Float) → Except Error Answer
  | .ok ts => .ok (.timeline ts)
  | .error cause => .error (.compile cause)

/-- The answer to compiling a text depends on the compiler and the shared table. -/
lemma answer_compile (s : Session) (who : Option String) (text : Option String) :
    (s.step (.compile who text)).1 = match s.compilerFor who with
      | none => .error .noCompiler
      | some compiler =>
        answerOf (compiler.compile s.shared (text.bind Characteristic.read?)) := by
  simp only [step]
  cases s.compilerFor who with
  | none => rfl
  | some compiler =>
    have htimeline : s.timelineOf compiler text =
        compiler.compile s.shared (text.bind Characteristic.read?) := by
      cases text <;> rfl
    dsimp only
    rw [htimeline]
    cases compiler.compile s.shared (text.bind Characteristic.read?) <;> rfl

/-! ### A compiler with a table of its own -/

/-- Of steps that make no compiler of a name, only those matter to the compiler of the name that
take a rule from it. -/
lemma get?_after_filter {name : String} {steps : List Step} {s s' : Session}
    (h : s.compilers.get? name = s'.compilers.get? name)
    (hsteps : ∀ step ∈ steps, step.makes name = false) :
    (s.after steps).compilers.get? name =
      (s'.after (steps.filter (·.deprives name))).compilers.get? name := by
  induction steps generalizing s s' with
  | nil => exact h
  | cons first steps ih =>
    have hfirst := hsteps first (by simp)
    have hrest := fun step hstep => hsteps step (List.mem_cons_of_mem _ hstep)
    rw [after_cons]
    by_cases hdeprives : first.deprives name = true
    · rw [List.filter_cons_of_pos hdeprives, after_cons]
      exact ih (get?_step_of_deprives hdeprives h) hrest
    · rw [List.filter_cons_of_neg hdeprives]
      exact ih ((get?_step_of_not hfirst (by simpa using hdeprives) s).trans h) hrest

/-- The compiler of a name, if there is one, has a table of its own. -/
def OwnTable (s : Session) (name : String) : Prop :=
  ∀ compiler, s.compilers.get? name = some compiler → compiler.table.isSome

lemma OwnTable.after {name : String} {steps : List Step} {s : Session} (h : s.OwnTable name)
    (hsteps : ∀ step ∈ steps, step.makes name = false) : (s.after steps).OwnTable name := by
  induction steps generalizing s with
  | nil => exact h
  | cons first steps ih =>
    have hfirst := hsteps first (by simp)
    refine ih (fun compiler hcompiler => ?_)
      fun step hstep => hsteps step (List.mem_cons_of_mem _ hstep)
    cases first with
    | dropRule other type =>
      rw [get?_step] at hcompiler
      dsimp only at hcompiler
      split_ifs at hcompiler
      · obtain ⟨old, hold, rfl⟩ := Option.map_eq_some_iff.mp hcompiler
        rw [Compiler.table_deprived]
        exact h old hold
      · exact h compiler hcompiler
    | _ =>
      rw [get?_step_of_not hfirst rfl] at hcompiler
      exact h compiler hcompiler

lemma ownTable_of_makesOwn {name : String} {creation : Step} (hcreation : creation.makesOwn name)
    (s : Session) : (s.step creation).2.OwnTable name := by
  intro compiler hcompiler
  rw [get?_step] at hcompiler
  cases creation with
  | make other made =>
    rw [Step.makesOwn, Bool.and_eq_true, decide_eq_true_eq] at hcreation
    dsimp only at hcompiler
    rw [if_pos hcreation.1.symm, Option.some.injEq] at hcompiler
    exact hcompiler ▸ hcreation.2
  | configure other config =>
    rw [Step.makesOwn, decide_eq_true_eq] at hcreation
    dsimp only at hcompiler
    rw [if_pos hcreation.symm, Option.some.injEq] at hcompiler
    exact hcompiler ▸ rfl
  | _ => cases hcreation

/-- If a compiler has its own table, its answers do not depend on the shared one. -/
lemma answer_of_ownTable {s s' : Session} {name : String}
    (h : s.compilers.get? name = s'.compilers.get? name) (hown : s.OwnTable name)
    (text : Option String) :
    (s.step (.compile (some name) text)).1 = (s'.step (.compile (some name) text)).1 := by
  rw [answer_compile, answer_compile]
  simp only [compilerFor, ← h]
  cases hcompiler : s.compilers.get? name with
  | none => rfl
  | some compiler =>
    exact congrArg answerOf (Compiler.compile_of_isSome (hown compiler hcompiler) _ _ _)

/-! ### Registrations and lights that are no Morse lights -/

/-- Two sessions have the same compilers, up to their tables. -/
def AlikeButTables (s s' : Session) : Prop :=
  ∀ name, (s.compilers.get? name).map Compiler.tableless =
    (s'.compilers.get? name).map Compiler.tableless

namespace AlikeButTables

variable {s s' : Session}

/-- The same step in both sessions leaves them alike. -/
lemma step (h : s.AlikeButTables s') (step : Step) :
    (s.step step).2.AlikeButTables (s'.step step).2 := by
  intro name
  have hname := h name
  rw [get?_step, get?_step]
  cases step with
  | make other compiler =>
    dsimp only
    split_ifs
    · rfl
    · exact hname
  | configure other config =>
    dsimp only
    split_ifs
    · rfl
    · exact hname
  | dropRule other type =>
    dsimp only
    split_ifs
    · simpa [Option.map_map, Function.comp_def, Compiler.tableless, Compiler.deprived_withTable]
        using congrArg (Option.map (Compiler.deprived type)) hname
    · exact hname
  | _ => exact hname

/-- Leaving registrations out leaves two sessions alike. -/
lemma after_filter (h : s.AlikeButTables s') (steps : List Step) :
    (s.after steps).AlikeButTables (s'.after (steps.filter fun step => !step.registers)) := by
  induction steps generalizing s s' with
  | nil => exact h
  | cons first steps ih =>
    cases first with
    | register character code =>
      have hregistered : (s.step (.register character code)).2.AlikeButTables s' := fun name => by
        rw [get?_step]
        exact h name
      exact ih hregistered
    | _ => exact ih (h.step _)

/-- Alike compilers give the same answer for a text that is no Morse light. -/
lemma answer (h : s.AlikeButTables s') (who : Option String) {text : Option String}
    (htext : ∀ light : Characteristic Float,
      text.bind Characteristic.read? = some light → light.type ≠ .morse) :
    (s.step (.compile who text)).1 = (s'.step (.compile who text)).1 := by
  have halike : (s.compilerFor who).map Compiler.tableless =
      (s'.compilerFor who).map Compiler.tableless := by
    cases who with
    | none => rfl
    | some name => exact h name
  rw [answer_compile, answer_compile]
  cases hc : s.compilerFor who <;> cases hc' : s'.compilerFor who <;> simp [hc, hc'] at halike ⊢
  case some.some c c' =>
    rw [Compiler.compile_of_ne_morse c _ s'.shared htext,
      Compiler.compile_of_ne_morse c' _ s'.shared htext, halike]

end AlikeButTables

/-! ### Rules taken from another compiler -/

/-- Two sessions differ at most in the compilers of some names. -/
def AlikeBut (names : String → Prop) (s s' : Session) : Prop :=
  s.shared = s'.shared ∧
    ∀ other, ¬ names other → s.compilers.get? other = s'.compilers.get? other

namespace AlikeBut

variable {names : String → Prop} {s s' : Session}

/-- The same step in both sessions adds no difference, and removes that of a name for which it
makes a compiler. -/
lemma step (h : s.AlikeBut names s') (step : Step) :
    (s.step step).2.AlikeBut (fun other => names other ∧ step.makes other = false)
      (s'.step step).2 := by
  refine ⟨by rw [shared_step, shared_step, h.1], fun other hother => ?_⟩
  by_cases hnames : names other
  · exact get?_step_of_makes (by simpa [hnames] using hother) h.1
  · rw [get?_step, get?_step, h.1]
    cases step <;> simp only [h.2 other hnames]

lemma after (h : s.AlikeBut names s') (steps : List Step) :
    (s.after steps).AlikeBut (fun other => names other ∧ ∀ step ∈ steps, step.makes other = false)
      (s'.after steps) := by
  induction steps generalizing s s' names with
  | nil => exact ⟨h.1, fun other hother => h.2 other fun hnames => hother ⟨hnames, by simp⟩⟩
  | cons first steps ih =>
    obtain ⟨hshared, hsame⟩ := ih (h.step first)
    refine ⟨hshared, fun other hother => hsame other fun hboth => hother ⟨hboth.1.1, ?_⟩⟩
    exact List.forall_mem_cons.mpr ⟨hboth.1.2, hboth.2⟩

lemma answer (h : s.AlikeBut names s') {who : Option String} (hwho : ∀ name ∈ who, ¬ names name)
    (text : Option String) :
    (s.step (.compile who text)).1 = (s'.step (.compile who text)).1 := by
  have hsame : s.compilerFor who = s'.compilerFor who := by
    cases who with
    | none => rfl
    | some other => exact h.2 other (hwho other rfl)
  rw [answer_compile, answer_compile, h.1, hsame]

end AlikeBut

lemma alikeBut_dropRule (s : Session) (name : String) (type : LightType) :
    (s.step (.dropRule name type)).2.AlikeBut (· = name) s := by
  refine ⟨by rw [shared_step], fun other hother => ?_⟩
  rw [get?_step]
  exact if_neg hother

/-! ### Every session -/

/-- **Compilers do not leak into each other, nor does the shared table leak into them.** Whatever
happens in a session, of the steps after a compiler with a table of its own was made, those that
take no rule from it can be left out without a change of what it compiles. A configured compiler
has for every character the configured code, else the one that was registered last when it was
made; it compiles as any compiler with these codes, its settings and the rules that it still has. A
compiler without a table compiles as if it had a table of the latest registrations. What is no Morse
light is compiled alike if the registrations are left out. To take a rule from a compiler changes
nothing for the other ones, nor for a later one of the same name. -/
theorem compilers_isolated (s : Session) (text : Option String) :
    (∀ (before : List Step) (creation : Step) (between : List Step) (name : String),
      creation.makesOwn name → (∀ step ∈ between, step.makes name = false) →
      (s.run (before ++ creation :: between ++ [Step.compile (some name) text])).getLast? =
        (s.run (before ++ creation :: between.filter (·.deprives name)
          ++ [Step.compile (some name) text])).getLast?) ∧
    (∀ (before : List Step) (name : String) (config : Config), config.morse.keys.Nodup →
      ∃ compiler table,
        (s.after (before ++ [Step.configure name config])).compilers.get? name = some compiler ∧
        compiler.table = some table ∧
        ∀ character, table.get? character = (config.morse.get? character).or
          ((lastRegistered character before).or (s.shared.get? character))) ∧
    (∀ (before : List Step) (name : String) (config : Config) (between : List Step),
      config.morse.keys.Nodup → (∀ step ∈ between, step.makes name = false) →
      ∀ (table shared : Table String), (∀ character, table.get? character =
        (config.morse.get? character).or
          ((lastRegistered character before).or (s.shared.get? character))) →
      (s.run (before ++ Step.configure name config :: between
          ++ [Step.compile (some name) text])).getLast? =
        some (answerOf ((({ config.compiler {} with table := some table } : Compiler Float).deprivedOf
          (rulesTaken name between)).compile shared (text.bind Characteristic.read?)))) ∧
    (∀ (steps : List Step) (who : Option String) (compiler : Compiler Float),
      (s.after steps).compilerFor who = some compiler → compiler.table = none →
      ∀ (table shared : Table String), (∀ character, table.get? character =
        (lastRegistered character steps).or (s.shared.get? character)) →
      (s.run (steps ++ [Step.compile who text])).getLast? = some (answerOf
        (({ compiler with table := some table } : Compiler Float).compile shared
          (text.bind Characteristic.read?)))) ∧
    ((∀ light : Characteristic Float, text.bind Characteristic.read? = some light →
        light.type ≠ .morse) →
      ∀ (steps : List Step) (who : Option String),
      (s.run (steps ++ [Step.compile who text])).getLast? =
        (s.run (steps.filter (fun step => !step.registers) ++ [Step.compile who text])).getLast?) ∧
    (∀ (before : List Step) (name : String) (type : LightType) (between : List Step)
      (who : Option String), (who = some name → ∃ step ∈ between, step.makes name) →
      (s.run (before ++ Step.dropRule name type :: between ++ [Step.compile who text])).getLast? =
        (s.run (before ++ between ++ [Step.compile who text])).getLast?) := by
  refine ⟨fun before creation between name hcreation hbetween => ?own,
    fun before name config hkeys => ?configured,
    fun before name config between hkeys hbetween table shared hcodes => ?compiled,
    fun steps who compiler hwho htable table shared hrecent => ?shared,
    fun htext steps who => ?registered, fun before name type between who hwho => ?deprived⟩
  case own =>
    have hmade := ownTable_of_makesOwn hcreation (s.after before)
    rw [getLast?_run, getLast?_run, after_append, after_append, after_cons, after_cons]
    exact congrArg some
      (answer_of_ownTable (get?_after_filter rfl hbetween) (hmade.after hbetween) text)
  case configured =>
    refine ⟨config.compiler (s.after before).shared, _, ?_, rfl, fun character => ?_⟩
    · rw [after_append, after_cons, after_nil, get?_step]
      exact if_pos rfl
    · rw [Table.get?_update _ _ hkeys, get?_shared_after]
  case compiled =>
    obtain ⟨made, hmade⟩ : ∃ made, config.compiler (s.after before).shared = made := ⟨_, rfl⟩
    have hcompiler : (((s.after before).step (.configure name config)).2.after between).compilers.get?
        name = some (made.deprivedOf (rulesTaken name between)) := by
      rw [get?_after_of_not_makes hbetween, get?_step]
      dsimp only
      rw [if_pos rfl, hmade, Option.map_some]
    -- the settings of the compiler are those of the configuration, whatever was registered
    have hsettings : ({ config.compiler {} with table := some table } : Compiler Float) =
        { made with table := some table } := by
      rw [← hmade]
      rfl
    rw [getLast?_run, after_append, after_cons, answer_compile, compilerFor, hcompiler, hsettings,
      Compiler.deprivedOf_withTable _ made (some table)]
    refine congrArg (fun result => some (answerOf result))
      (Compiler.compile_withTable _ (fun character => ?_) shared _)
    rw [Compiler.tableWith, Compiler.table_deprivedOf, hcodes, ← get?_shared_after, ← hmade]
    exact (Table.get?_update _ _ hkeys character).symm
  case shared =>
    rw [getLast?_run, answer_compile, hwho]
    refine congrArg (fun result => some (answerOf result))
      (Compiler.compile_withTable compiler (fun character => ?_) shared _)
    rw [Compiler.tableWith, htable, Option.getD_none, hrecent, get?_shared_after]
  case registered =>
    rw [getLast?_run, getLast?_run]
    exact congrArg some (AlikeButTables.answer (.after_filter (fun _ => rfl) steps) who htext)
  case deprived =>
    rw [getLast?_run, getLast?_run, after_append, after_append, after_cons]
    refine congrArg some (((alikeBut_dropRule _ name type).after between).answer ?_ text)
    rintro other hother ⟨rfl, hnone⟩
    obtain ⟨step, hstep, hmakes⟩ := hwho hother
    exact absurd (hnone step hstep) (by simp [hmakes])

/-- A configuration with a code of its own for one letter. -/
def overriding : Config := { morse := ⟨[("K", ".")]⟩ }

/-- What happens after a compiler was made: registrations, another compiler, the loss of rules. -/
def bustle : List Step :=
  [.register "K" "---", .make "plain" Compiler.standard, .dropRule "plain" .morse,
    .dropRule "own" .isophase, .register "U" "."]

/-- The codes that a compiler of this configuration sees if it is made after a registration. -/
def seenCodes : Table String := (Morse.builtin.set "U" "-").set "K" "."

lemma get?_seenCodes (character : String) :
    seenCodes.get? character = (overriding.morse.get? character).or
      ((lastRegistered character [.register "U" "-"]).or (Morse.builtin.get? character)) := by
  have hmorse : overriding.morse.get? character = if character = "K" then some "." else none :=
    Table.get?_set {} "K" character "."
  rw [seenCodes, Table.get?_set, Table.get?_set, hmorse]
  generalize Morse.builtin.get? character = builtin
  by_cases hown : character = "K"
  · simp [hown]
  · by_cases hregistered : "U" = character
    · simp [lastRegistered, ← hregistered]
    · simp [lastRegistered, hown, hregistered, Ne.symm hregistered]

/-- A configured compiler sends its own letter, and the one that was registered when it was made,
after any bustle. -/
theorem overriding_compiler_isolated :
    (run {} ([Step.register "U" "-", .configure "own" overriding] ++ bustle
        ++ [Step.compile (some "own") (some "Mo(U) W 8s")])).getLast? =
      (run {} [.register "U" "-", .configure "own" overriding, .dropRule "own" .isophase,
        .compile (some "own") (some "Mo(U) W 8s")]).getLast? ∧
    (∃ compiler table,
      (after {} [.register "U" "-", .configure "own" overriding]).compilers.get? "own" =
        some compiler ∧
      compiler.table = some table ∧ table.get? "K" = some "." ∧ table.get? "U" = some "-") ∧
    (run {} ([Step.register "U" "-", .configure "own" overriding] ++ bustle
        ++ [Step.compile (some "own") (some "Mo(U) W 8s")])).getLast? =
      some (answerOf ((({ overriding.compiler {} with table := some seenCodes } :
        Compiler Float).deprivedOf [.isophase]).compile {}
          (some "Mo(U) W 8s" >>= Characteristic.read?))) := by
  have hall := compilers_isolated {} (some "Mo(U) W 8s")
  have hfilter : bustle.filter (·.deprives "own") = [.dropRule "own" .isophase] := rfl
  have hown := hall.1 [.register "U" "-"] (.configure "own" overriding) bustle "own" (by decide)
    (by decide)
  rw [hfilter] at hown
  refine ⟨hown, ?_, hall.2.2.1 [.register "U" "-"] "own" overriding bustle (by decide) (by decide)
    seenCodes {} get?_seenCodes⟩
  obtain ⟨compiler, table, hcompiler, htable, hcodes⟩ :=
    hall.2.1 [.register "U" "-"] "own" overriding (by decide)
  exact ⟨compiler, table, hcompiler, htable, (hcodes "K").trans (by decide),
    (hcodes "U").trans (by decide)⟩

end Session

end Seamark
