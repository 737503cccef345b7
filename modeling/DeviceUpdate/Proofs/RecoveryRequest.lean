import DeviceUpdate.Proofs.Environment

/-!
# Recovery requests that are cut off

Every single `fw_setenv` may fail, whether or not it took effect, and the device may stop at any
point. A request is made and taken back in opposite orders, so the flag that starts the recovery
system never stands in the environment without a command for it.
-/

namespace DeviceUpdate

/-! ### Runs that may be cut off -/

namespace Procedure

variable {α β ε : Type} {may : Effect → ε → Answer → ε → Prop}

/-- A run of a procedure as far as it came: its effects with their answers, in order, and its value
unless it was cut off. `may` tells how an effect is answered and what it makes of the state; the
files and the boot layout are left open. -/
inductive Runs (may : Effect → ε → Answer → ε → Prop) :
    Procedure α → ε → List (Effect × Answer) → Option α → ε → Prop
  | cut (p : Procedure α) (x : ε) : Runs may p x [] none x
  | done (a : α) (x : ε) : Runs may (.done a) x [] (some a) x
  | perform {e : Effect} {next : Answer → Procedure α} {answer : Answer} {x y z : ε}
      {did : List (Effect × Answer)} {result : Option α} (gets : may e x answer y)
      (rest : Runs may (next answer) y did result z) :
      Runs may (.perform e next) x ((e, answer) :: did) result z
  | files {change : FileSystem → FileSystem} {next : FileSystem → Procedure α} {x z : ε}
      {did : List (Effect × Answer)} {result : Option α} (fs : FileSystem)
      (rest : Runs may (next fs) x did result z) : Runs may (.files change next) x did result z
  | classify {next : BootLayout → Procedure α} {x z : ε} {did : List (Effect × Answer)}
      {result : Option α} (layout : BootLayout) (rest : Runs may (next layout) x did result z) :
      Runs may (.classify next) x did result z
  | settle {layout : BootLayout} {next : Procedure α} {x z : ε} {did : List (Effect × Answer)}
      {result : Option α} (rest : Runs may next x did result z) :
      Runs may (.settle layout next) x did result z

/-- The first part is cut off, or it comes to a value and the second part runs. -/
def RunsThen (may : Effect → ε → Answer → ε → Prop) (p : Procedure α) (f : α → Procedure β) (x : ε)
    (did : List (Effect × Answer)) (result : Option β) (z : ε) : Prop :=
  (result = none ∧ Runs may p x did none z) ∨
    ∃ a y first second, Runs may p x first (some a) y ∧ Runs may (f a) y second result z ∧
      did = first ++ second

/-- What changes nothing may stand in front. -/
lemma RunsThen.lift {p q : Procedure α} {f : α → Procedure β} {x z : ε}
    {did : List (Effect × Answer)} {result : Option β} (h : RunsThen may p f x did result z)
    (front : ∀ {did : List (Effect × Answer)} {result : Option α} {z : ε},
      Runs may p x did result z → Runs may q x did result z) : RunsThen may q f x did result z := by
  obtain ⟨rfl, hcut⟩ | ⟨a, y, first, second, hfirst, hsecond, rfl⟩ := h
  · exact .inl ⟨rfl, front hcut⟩
  · exact .inr ⟨a, y, first, second, front hfirst, hsecond, rfl⟩

lemma Runs.of_bind {p : Procedure α} {f : α → Procedure β} {x z : ε}
    {did : List (Effect × Answer)} {result : Option β} (h : Runs may (p.bind f) x did result z) :
    RunsThen may p f x did result z := by
  induction p generalizing x did with
  | done a => exact .inr ⟨a, x, [], did, .done a x, h, rfl⟩
  | perform e next ih =>
    cases h with
    | cut => exact .inl ⟨rfl, .cut _ _⟩
    | perform gets rest =>
      obtain ⟨rfl, hcut⟩ | ⟨a, y, first, second, hfirst, hsecond, rfl⟩ := ih _ rest
      · exact .inl ⟨rfl, .perform gets hcut⟩
      · exact .inr ⟨a, y, _, second, .perform gets hfirst, hsecond, rfl⟩
  | files change next ih =>
    cases h with
    | cut => exact .inl ⟨rfl, .cut _ _⟩
    | files fs rest => exact (ih _ rest).lift (.files fs)
  | classify next ih =>
    cases h with
    | cut => exact .inl ⟨rfl, .cut _ _⟩
    | classify layout rest => exact (ih _ rest).lift (.classify layout)
  | settle layout next ih =>
    cases h with
    | cut => exact .inl ⟨rfl, .cut _ _⟩
    | settle rest => exact (ih rest).lift .settle

end Procedure

/-! ### Commands that may fail -/

/-- The command ran to its end and exited with status 0. -/
def Succeeded (answer : Answer) : Prop := ∃ stdout, answer = .ok ⟨some 0, stdout⟩

lemma Command.expectSuccess_iff (c : Command) (answer : Answer) :
    (c.expectSuccess answer).map (fun _ => ()) = .ok () ↔ Succeeded answer := by
  have houtput : Succeeded answer ↔ ∃ output, c.expectSuccess answer = .ok output := by
    simp only [expectSuccess_eq_ok_iff]
    constructor
    · rintro ⟨stdout, rfl⟩
      exact ⟨_, rfl, rfl⟩
    · rintro ⟨⟨status, stdout⟩, rfl, success⟩
      exact ⟨stdout, by rw [← success]⟩
  rw [houtput]
  cases c.expectSuccess answer <;> simp [Except.map]

/-- A run of `fw_setenv` changes the environment, or it fails and leaves it as it was; it may also
fail after it has changed it. -/
def Effect.Unreliable (e : Effect) (before : Environment) (answer : Answer)
    (after : Environment) : Prop :=
  match e with
  | .run c =>
    if c.program = "fw_setenv" then
      after = before.change c.arguments ∨ (after = before ∧ ¬ Succeeded answer)
    else after = before
  | _ => after = before

namespace RecoveryWriter

open Procedure (Runs)

/-- The command that sets a variable of the environment, or deletes it. -/
def setter (timeout : Duration) (arguments : List String) : Effect :=
  .run ⟨"fw_setenv", arguments, some timeout⟩

/-- A run may take effect whatever its answer is. -/
lemma setter_takes {timeout : Duration} {arguments : List String} {env : Environment}
    (answer : Answer) :
    (setter timeout arguments).Unreliable env answer (env.change arguments) := .inl rfl

/-- Two changes of the environment, the second only after the first has succeeded. -/
structure Changes (timeout : Duration) (first second : List String) (before : Environment)
    (did : List (Effect × Answer)) (result : Option (Except UpdateError Unit))
    (after : Environment) : Prop where
  reached : after = before ∨ after = before.change first ∨
    after = (before.change first).change second
  finished : result = some (.ok ()) → after = (before.change first).change second
  complete : result = some (.ok ()) →
    did.map Prod.fst = [setter timeout first, setter timeout second]
  honest : ∀ r, result = some r → (r = .ok () ↔ ∀ d ∈ did, Succeeded d.2)

variable {timeout : Duration} {before after : Environment} {did : List (Effect × Answer)}
  {result : Option (Except UpdateError Unit)}

lemma setVariable_runs {arguments : List String}
    (h : Runs Effect.Unreliable (setVariable timeout arguments) before did result after) :
    (did = [] ∧ result = none ∧ after = before) ∨
      ∃ answer, did = [(setter timeout arguments, answer)] ∧
        (after = before.change arguments ∨ (after = before ∧ ¬ Succeeded answer)) ∧
        ∀ r, result = some r → (r = .ok () ↔ Succeeded answer) := by
  have hperform : setVariable timeout arguments =
      .perform (setter timeout arguments) fun answer =>
        .done ((Command.expectSuccess ⟨"fw_setenv", arguments, some timeout⟩ answer).map
          fun _ => ()) := rfl
  rw [hperform] at h
  cases h with
  | cut => exact .inl ⟨rfl, rfl, rfl⟩
  | @perform _ _ answer _ _ _ _ _ gets rest =>
    right
    cases rest with
    | cut => exact ⟨answer, rfl, gets, by simp⟩
    | done =>
      refine ⟨answer, rfl, gets, ?_⟩
      rintro r ⟨⟩
      exact Command.expectSuccess_iff _ answer

lemma changes_of_runs {first second : List String}
    (h : Runs Effect.Unreliable
      ((setVariable timeout first).andThen fun _ => setVariable timeout second)
      before did result after) :
    Changes timeout first second before did result after := by
  obtain ⟨rfl, hcut⟩ | ⟨r, mid, firsts, seconds, hfirst, hsecond, rfl⟩ := Runs.of_bind h
  · obtain ⟨rfl, -, rfl⟩ | ⟨answer, rfl, hafter, -⟩ := setVariable_runs hcut
    · exact ⟨.inl rfl, by simp, by simp, by simp⟩
    · exact ⟨hafter.elim (fun he => .inr (.inl he)) fun he => .inl he.1, by simp, by simp, by simp⟩
  · obtain ⟨-, hnone, -⟩ | ⟨answer, rfl, hmid, hr⟩ := setVariable_runs hfirst
    · simp at hnone
    replace hr := hr r rfl
    cases r with
    | error e =>
      -- the second command is not run, so the answer to the first is the result
      have hfailed : ¬ Succeeded answer := fun hs => by simpa using hr.mpr hs
      have hreached : mid = before ∨ mid = before.change first ∨
          mid = (before.change first).change second :=
        hmid.elim (fun he => .inr (.inl he)) fun he => .inl he.1
      cases hsecond with
      | cut => exact ⟨hreached, by simp, by simp, by simp⟩
      | done =>
        refine ⟨hreached, by simp, by simp, ?_⟩
        rintro r ⟨⟩
        simp [hfailed]
    | ok =>
      have hsucceeded : Succeeded answer := hr.mp rfl
      obtain rfl : mid = before.change first := hmid.resolve_right fun he => he.2 hsucceeded
      obtain ⟨rfl, rfl, rfl⟩ | ⟨answer', rfl, hafter, hr'⟩ := setVariable_runs hsecond
      · exact ⟨.inr (.inl rfl), by simp, by simp, by simp⟩
      · refine ⟨.inr (hafter.symm.imp And.left id), fun hok => ?_, fun _ => rfl,
          fun r hresult => ?_⟩
        · exact hafter.resolve_right fun he => he.2 ((hr' _ hok).mp rfl)
        · simpa [hsucceeded] using hr' r hresult

end RecoveryWriter

/-! ### Sequences of calls -/

/-- A call of the writer that keeps its request in the bootloader's environment. -/
inductive RecoveryCall where
  | write (package : String)
  | clear
  deriving DecidableEq, Repr

namespace RecoveryCall

def procedure (timeout : Duration) : RecoveryCall → Procedure (Except UpdateError Unit)
  | .write package => RecoveryWriter.write package (.environment timeout)
  | .clear => RecoveryWriter.clear (.environment timeout)

/-- The arguments of the two commands that the call consists of. -/
def arguments : RecoveryCall → List String × List String
  | .write package =>
    (["recovery_command", "--update_package=" ++ package], ["boot_recovery", "yes"])
  | .clear => (["boot_recovery"], ["recovery_command"])

/-- The environment says what the call is to make it say. -/
def Fulfilled : RecoveryCall → Environment → Prop
  | .write package, env => env.Names package ∧ env.Flagged
  | .clear, env => env "boot_recovery" = none ∧ env "recovery_command" = none

end RecoveryCall

/-- If the flag is set, whatever its value, then so is the command. -/
def Environment.Coherent (env : Environment) : Prop :=
  (env "boot_recovery").isSome → (env "recovery_command").isSome

/-- A call that was made: its commands with their answers, its result unless it was cut off, and the
environment that it left. -/
structure MadeCall where
  call : RecoveryCall
  did : List (Effect × Answer)
  result : Option (Except UpdateError Unit)
  after : Environment

/-- Calls are made one after another, each as soon as the one before has returned, up to a point
where everything stops. -/
inductive RecoveryCourse (timeout : Duration) :
    Environment → List RecoveryCall → List MadeCall → Environment → Prop
  | stop (calls : List RecoveryCall) (env : Environment) : RecoveryCourse timeout env calls [] env
  | cut {call : RecoveryCall} {later : List RecoveryCall} {did : List (Effect × Answer)}
      {before after : Environment}
      (runs : (call.procedure timeout).Runs Effect.Unreliable before did none after) :
      RecoveryCourse timeout before (call :: later) [⟨call, did, none, after⟩] after
  | call {call : RecoveryCall} {later : List RecoveryCall} {did : List (Effect × Answer)}
      {result : Except UpdateError Unit} {made : List MadeCall} {before mid after : Environment}
      (runs : (call.procedure timeout).Runs Effect.Unreliable before did (some result) mid)
      (rest : RecoveryCourse timeout mid later made after) :
      RecoveryCourse timeout before (call :: later) (⟨call, did, some result, mid⟩ :: made) after

section

variable {timeout : Duration} {before after : Environment} {did : List (Effect × Answer)}
  {result : Option (Except UpdateError Unit)}

open RecoveryWriter (Changes setter)

lemma RecoveryCall.changes {call : RecoveryCall}
    (h : (call.procedure timeout).Runs Effect.Unreliable before did result after) :
    Changes timeout call.arguments.1 call.arguments.2 before did result after := by
  cases call with
  | write package => exact RecoveryWriter.changes_of_runs h
  | clear => exact RecoveryWriter.changes_of_runs h

/-- The command is written before the flag, and deleted after it. -/
lemma RecoveryCall.coherent_of_reached {call : RecoveryCall} (coherent : before.Coherent)
    (reached : after = before ∨ after = before.change call.arguments.1 ∨
      after = (before.change call.arguments.1).change call.arguments.2) : after.Coherent := by
  cases call with
  | write package =>
    obtain rfl | rfl | rfl := reached
    · exact coherent
    · simp [Environment.Coherent, arguments, Environment.change]
    · simp [Environment.Coherent, arguments, Environment.change]
  | clear =>
    obtain rfl | rfl | rfl := reached
    · exact coherent
    · simp [Environment.Coherent, arguments, Environment.change]
    · simp [Environment.Coherent, arguments, Environment.change]

lemma RecoveryCall.fulfilled_of_both (call : RecoveryCall) (env : Environment) :
    call.Fulfilled ((env.change call.arguments.1).change call.arguments.2) := by
  cases call with
  | write package =>
    simp [Fulfilled, arguments, Environment.Names, Environment.Flagged, Environment.change]
  | clear => simp [Fulfilled, arguments, Environment.change]

/-- What is known of a call that was made. -/
structure MadeCall.Reliable (timeout : Duration) (m : MadeCall) : Prop where
  coherent : m.after.Coherent
  /-- it returns success only if both commands were run -/
  complete : m.result = some (.ok ()) →
    m.did.map Prod.fst = [setter timeout m.call.arguments.1, setter timeout m.call.arguments.2]
  /-- it returns success if all commands that were run succeeded, and only then -/
  honest : ∀ r, m.result = some r → (r = .ok () ↔ ∀ d ∈ m.did, Succeeded d.2)
  fulfilled : m.result = some (.ok ()) → m.call.Fulfilled m.after

lemma RecoveryCall.reliable {call : RecoveryCall} (coherent : before.Coherent)
    (h : (call.procedure timeout).Runs Effect.Unreliable before did result after) :
    MadeCall.Reliable timeout ⟨call, did, result, after⟩ := by
  have hchanges := call.changes h
  refine ⟨coherent_of_reached coherent hchanges.reached, hchanges.complete, hchanges.honest,
    fun hok => ?_⟩
  obtain rfl := hchanges.finished hok
  exact call.fulfilled_of_both before

/-- Whatever fails and wherever it stops, the flag does not stand without a command, and every call
that returns success has done what it is for. -/
theorem recovery_request_crash_safe {calls : List RecoveryCall} {made : List MadeCall}
    (coherent : before.Coherent) (course : RecoveryCourse timeout before calls made after) :
    after.Coherent ∧ ∀ m ∈ made, m.Reliable timeout := by
  induction course with
  | stop calls env => exact ⟨coherent, by simp⟩
  | cut runs =>
    have hcut := RecoveryCall.reliable coherent runs
    exact ⟨hcut.coherent, by simpa using hcut⟩
  | call runs _ ih =>
    have hcall := RecoveryCall.reliable coherent runs
    obtain ⟨hafter, hmade⟩ := ih hcall.coherent
    exact ⟨hafter, List.forall_mem_cons.mpr ⟨hcall, hmade⟩⟩

end

/-- A request that is withdrawn too late, and made again by a call that is cut off, leaves a command
and no flag. -/
theorem cut_off_request_leaves_command :
    ∃ made after, RecoveryCourse (.ofSeconds 2) (fun _ => none)
        [.write "dl/a.swu", .clear, .write "dl/b.swu"] made after ∧
      made.map MadeCall.result = [some (.ok ()), some (.error (.timeout "2s")), none] ∧
      after "boot_recovery" = none ∧ after.Names "dl/b.swu" ∧
      after.Coherent ∧ ∀ m ∈ made, m.Reliable (.ofSeconds 2) := by
  have hempty : Environment.Coherent fun _ => none := by simp [Environment.Coherent]
  have hcourse : RecoveryCourse (.ofSeconds 2) (fun _ => none)
      [.write "dl/a.swu", .clear, .write "dl/b.swu"] _ _ :=
    .call
      (.perform (RecoveryWriter.setter_takes (.ok ⟨some 0, ""⟩))
        (.perform (RecoveryWriter.setter_takes (.ok ⟨some 0, ""⟩)) (.done _ _)))
      (.call
        -- the flag is deleted although the command fails
        (.perform (RecoveryWriter.setter_takes (.error (.timeout "2s"))) (.done _ _))
        (.cut (.perform (RecoveryWriter.setter_takes (.ok ⟨some 0, ""⟩)) (.cut _ _))))
  exact ⟨_, _, hcourse, rfl, rfl, rfl, recovery_request_crash_safe hempty hcourse⟩

end DeviceUpdate
