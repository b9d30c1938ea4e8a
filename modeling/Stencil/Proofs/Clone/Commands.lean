import Stencil.Proofs.Clone.Ignored
import Stencil.Proofs.Clone.Removal

/-!
# How the commands of a clone are run

The commands of a template come down to lines for a shell. Whoever the shell is and whatever it does to the disk,
the lines are tried one after another, and an attempt starts in the world that the one before has left and in the
directory that the path leads to then (`Shell.Attempts`). The first attempt that fails is the last one, and the
failure names its line (`Shell.Outcome`).

A clone comes to its commands when everything else was done, and it does nothing behind them. What they leave is
what there is in the end, be it that all of them ran or that one has failed (`Clone.run_commands_in_order`).
-/

namespace Stencil

open Files Files.Disk

/-- What is said about a line that has failed names it. -/
theorem Failure.exists_hookMessage (line : String) (fault : HookFault) :
    ∃ front back, hookMessage line fault = front ++ "'" ++ line ++ "'" ++ back := by
  have hopen : "could not run '" = "could not run " ++ "'" := rfl
  cases fault with
  | notStarted fault =>
      refine ⟨"could not run ", ": " ++ fault.message, ?_⟩
      show "could not run '" ++ line ++ "': " ++ fault.message = _
      rw [hopen, show "': " = "'" ++ ": " from rfl]
      simp only [String.append_assoc]
  | untellable =>
      refine ⟨"could not run ", ": nul byte found in provided data", ?_⟩
      show "could not run '" ++ line ++ ("'" ++ ": nul byte found in provided data") = _
      rw [hopen]
      simp only [String.append_assoc]
  | exited code =>
      refine ⟨"", " failed with status: exit status: " ++ toString code, ?_⟩
      show "'" ++ line ++ ("'" ++ " failed with status: exit status: ") ++ toString code = _
      simp only [String.append_assoc, String.empty_append]
  | killed signal name =>
      refine ⟨"", " failed with status: signal: " ++ toString signal ++ " (" ++ name ++ ")", ?_⟩
      show "'" ++ line ++ ("'" ++ " failed with status: signal: ") ++ toString signal ++ " (" ++ name ++ ")" = _
      simp only [String.append_assoc, String.empty_append]

/-- A failure of a command names its line. -/
theorem Failure.exists_message_hook (line : String) (fault : HookFault) :
    ∃ front back, (Failure.hook line fault).message = front ++ "'" ++ line ++ "'" ++ back := by
  obtain ⟨front, back, hmessage⟩ := exists_hookMessage line fault
  refine ⟨"Post-clone command error: " ++ front, back ++ ".", ?_⟩
  show "Post-clone command error: " ++ hookMessage line fault ++ "." = _
  rw [hmessage]
  simp only [String.append_assoc]

/-! ## Lines, one by one -/

namespace Shell

/-- What came of a line: the worlds before and behind it, and why it failed, if it did. -/
structure Attempt where
  line : String
  before : World
  fault? : Option HookFault
  after : World

/-- The result of an attempt. -/
def Attempt.result (attempt : Attempt) : Except Failure Unit :=
  match attempt.fault? with
  | none => .ok ()
  | some fault => .error (.hook attempt.line fault)

/-- **An attempt at a line**: the shell runs it in the directory that the path leads to, whatever comes of that, or
it cannot be started, and nothing happens. -/
inductive Tries (shell : Runner) (directory : String) (number : Nat) : Attempt → Prop where
  | run {line : String} {before : World} {place : Place} {entry : Entry} {status : Status}
      {printed complaints : String} {disk : Disk} :
      isTellable line = true →
      before.disk.find true directory = .ok (place, entry) → entry.isDirectory = true →
      shell number line place before.disk = (status, printed, complaints, disk) →
      Tries shell directory number
        { line, before, fault? := hookFault? status
          after := { disk, printed := before.printed ++ printed, complaints := before.complaints ++ complaints } }
  | unable {line : String} {before : World} {fault : HookFault} :
      hookPlace before.disk directory line = .error fault →
      Tries shell directory number { line, before, fault? := some fault, after := before }

/-- **Attempts one after another**, numbered from some number on: each starts in the world that the one before has
left. -/
inductive Attempts (shell : Runner) (directory : String) : Nat → World → List Attempt → World → Prop where
  | nil {number : Nat} {world : World} : Attempts shell directory number world [] world
  | cons {number : Nat} {attempt : Attempt} {rest : List Attempt} {after : World} :
      Tries shell directory number attempt →
      Attempts shell directory (number + 1) attempt.after rest after →
      Attempts shell directory number attempt.before (attempt :: rest) after

/-- **What attempts at lines come to**: all of the lines were tried and none has failed, or they were tried up to
the first one that has, and that is what is told. -/
inductive Outcome : List String → List Attempt → Except Failure Unit → Prop where
  | all {attempts : List Attempt} :
      (∀ attempt ∈ attempts, attempt.fault? = none) →
      Outcome (attempts.map Attempt.line) attempts (.ok ())
  | upTo {front : List Attempt} {last : Attempt} {fault : HookFault} {rest : List String} :
      (∀ attempt ∈ front, attempt.fault? = none) → last.fault? = some fault →
      Outcome ((front ++ [last]).map Attempt.line ++ rest) (front ++ [last]) (.error (.hook last.line fault))

/-- The lines that commands come down to: their words with spaces between them, unless there is nothing but blanks
in a line. -/
def commandLines (commands : List (List String)) : List String :=
  (commands.map fun words => " ".intercalate words).filter fun line => line.toList.any fun c => !Text.isBlank c

/-- **Whether commands are run in order**: by attempts at their lines one after another from some world on, as many
as the outcome says. It is a success exactly if none of them fails, and the world is the one that the last of them
has left. -/
def RunsInOrder (shell : Runner) (directory : String) (commands : List (List String)) (world : World)
    (ended : Except Failure Unit × World) : Prop :=
  ∃ attempts, Attempts shell directory 0 world attempts ended.2 ∧
    Outcome (commandLines commands) attempts ended.1 ∧
    (ended.1 = .ok () ↔ ∀ attempt ∈ attempts, attempt.fault? = none)

/-- Whether a shell never takes away what a path leads to. -/
def Spares (shell : Runner) (path : String) : Prop :=
  ∀ number line place (disk : Disk), disk.has path = true → (shell number line place disk).2.2.2.has path = true

variable {shell : Runner} {directory path : String} {number : Nat} {attempt : Attempt} {attempts : List Attempt}
  {lines : List String} {result : Except Failure Unit} {world after : World}

namespace Outcome

theorem cons (hwell : attempt.fault? = none) (h : Outcome lines attempts result) :
    Outcome (attempt.line :: lines) (attempt :: attempts) result := by
  cases h with
  | all hall => exact .all (List.forall_mem_cons.mpr ⟨hwell, hall⟩)
  | @upTo front last fault rest hfront hlast =>
      exact @upTo (attempt :: front) last fault rest (List.forall_mem_cons.mpr ⟨hwell, hfront⟩) hlast

/-- A line that fails is the last one that is tried. -/
theorem stop {fault : HookFault} (hfault : attempt.fault? = some fault) (rest : List String) :
    Outcome (attempt.line :: rest) [attempt] (.error (.hook attempt.line fault)) :=
  @upTo [] attempt fault rest (List.forall_mem_nil _) hfault

theorem eq_ok_iff (h : Outcome lines attempts result) :
    result = .ok () ↔ ∀ attempt ∈ attempts, attempt.fault? = none := by
  cases h with
  | all hall => exact iff_of_true rfl hall
  | @upTo front last fault rest hfront hlast =>
      refine iff_of_false (by simp) fun hall => ?_
      rw [hall last (by simp)] at hlast
      cases hlast

/-- The line that is told is the last one that was tried. -/
theorem exists_of_error {line : String} {fault : HookFault}
    (h : Outcome lines attempts (.error (.hook line fault))) :
    ∃ front rest, lines = front ++ line :: rest ∧ attempts.map Attempt.line = front ++ [line] := by
  cases h with
  | @upTo front last _ rest _ _ => exact ⟨front.map Attempt.line, rest, by simp, by simp⟩

end Outcome

/-- A shell that only adds to disks spares everything. -/
theorem Spares.of_grown (h : ∀ number line place disk, Grown disk (shell number line place disk).2.2.2)
    (path : String) : Spares shell path := by
  intro number line place disk hhas
  obtain ⟨there, entry, hfind⟩ := has_iff.mp hhas
  obtain ⟨grown, _, hfind'⟩ := find_grow (h number line place disk) hfind
  exact has_iff.mpr ⟨there, grown, hfind'⟩

theorem Tries.spares (hspares : Spares shell path) (h : Tries shell directory number attempt)
    (hhas : attempt.before.disk.has path = true) : attempt.after.disk.has path = true := by
  cases h with
  | @run line _ place _ _ _ _ _ _ _ _ hshell =>
      have hkept := hspares number line place _ hhas
      rwa [hshell] at hkept
  | unable => exact hhas

/-- What a shell spares is there after all attempts. -/
theorem Attempts.spares (hspares : Spares shell path) (h : Attempts shell directory number world attempts after)
    (hhas : world.disk.has path = true) : after.disk.has path = true := by
  induction h with
  | nil => exact hhas
  | cons htries _ ih => exact ih (htries.spares hspares hhas)

end Shell

/-- The shell is started where the path of the directory leads. -/
theorem hookPlace_eq_ok {disk : Disk} {directory line : String} {place : Place}
    (h : hookPlace disk directory line = .ok place) :
    isTellable line = true ∧
      ∃ entry, disk.find true directory = .ok (place, entry) ∧ entry.isDirectory = true := by
  unfold hookPlace at h
  split at h
  · cases h
  · rename_i htellable
    rw [Bool.or_eq_true, not_or, Bool.not_eq_true', Bool.not_eq_false] at htellable
    split at h
    · cases h
    · rename_i found entry hfind
      split at h
      · rename_i hentry
        obtain rfl := Except.ok.inj h
        exact ⟨htellable.1, entry, hfind, hentry⟩
      · cases h

/-- **A line is run as an attempt at it.** -/
theorem exists_tries (shell : Shell.Runner) (directory line : String) (number : Nat) (world : World) :
    ∃ attempt : Shell.Attempt, attempt.line = line ∧ attempt.before = world ∧
      Shell.Tries shell directory number attempt ∧
      (runHook shell directory number line).on world = (attempt.result, attempt.after) := by
  cases hplace : hookPlace world.disk directory line with
  | error fault =>
      refine ⟨_, rfl, rfl, .unable hplace, ?_⟩
      simp [runHook, Work.on_bind, hplace, Shell.Attempt.result]
  | ok place =>
      obtain ⟨htellable, entry, hfind, hentry⟩ := hookPlace_eq_ok hplace
      rcases hshell : shell number line place world.disk with ⟨status, printed, complaints, disk⟩
      refine ⟨_, rfl, rfl, .run htellable hfind hentry hshell, ?_⟩
      simp only [runHook, Work.on_bind, Work.on_disk, hplace, Work.on_ofExcept_ok, hshell, Work.on_setDisk,
        Work.on_print, Work.on_modify, Shell.Attempt.result]
      cases hookFault? status <;> rfl

/-- **Lines are run in order**, up to the first one that fails. -/
theorem exists_attempts (shell : Shell.Runner) (directory : String) (lines : List String) (number : Nat)
    (world : World) :
    ∃ attempts result after, Shell.Attempts shell directory number world attempts after ∧
      Shell.Outcome lines attempts result ∧
      ((lines.zipIdx number).forM fun (line, number) => runHook shell directory number line).on world =
        (result, after) := by
  -- The number and the world are general, since the other lines go on from where the first one has ended.
  induction lines generalizing number world with
  | nil => exact ⟨[], _, _, .nil, @Shell.Outcome.all [] (List.forall_mem_nil _), rfl⟩
  | cons line lines ih =>
      obtain ⟨attempt, rfl, rfl, htries, hon⟩ := exists_tries shell directory line number world
      show ∃ attempts result after, _ ∧ _ ∧
        (runHook shell directory number attempt.line >>= fun _ =>
          (lines.zipIdx (number + 1)).forM _).on attempt.before = (result, after)
      cases hfault : attempt.fault? with
      | none =>
          obtain ⟨attempts, result, after, hattempts, houtcome, hrest⟩ := ih (number + 1) attempt.after
          refine ⟨attempt :: attempts, result, after, .cons htries hattempts, houtcome.cons hfault, ?_⟩
          rw [Work.on_bind, hon, Shell.Attempt.result, hfault]
          exact hrest
      | some fault =>
          refine ⟨[attempt], _, _, .cons htries .nil, .stop hfault lines, ?_⟩
          rw [Work.on_bind, hon, Shell.Attempt.result, hfault]

theorem hookLines_eq (commands : List (List String)) : hookLines commands = Shell.commandLines commands := by
  unfold hookLines Shell.commandLines Text.isAllBlank
  simp only [List.not_all_eq_any_not]

/-- **The commands of a template are run in order.** -/
theorem runHooks_inOrder (shell : Shell.Runner) (directory : String) (commands : List (List String))
    (world : World) :
    Shell.RunsInOrder shell directory commands world ((runHooks shell directory commands).on world) := by
  obtain ⟨attempts, result, after, hattempts, houtcome, hon⟩ :=
    exists_attempts shell directory (hookLines commands) 0 world
  rw [runHooks, hon]
  rw [hookLines_eq] at houtcome
  exact ⟨attempts, hattempts, houtcome, houtcome.eq_ok_iff⟩

end Stencil

/-! ## The commands of a clone -/

namespace Stencil.Clone

open Files Files.Disk

variable {settings : Settings} {shell : Shell.Runner} {clone : Clone} {world filled : World} {manifest : Manifest}

/-- All that comes before the commands. -/
def prepare (settings : Settings) (clone : Clone) : Work Manifest := do
  let given ← loadVariables clone.variablesFrom
  if (← Work.disk).has clone.destination then Work.fail (.alreadyThere clone.destination)
  clone.repository.cloneInto clone.destination
  Work.onFailure (clone.fill settings given) (clearDirectory clone.destination)

/-- **A clone is prepared, and then its commands are run**; nothing comes behind them. -/
theorem run_eq_prepare (settings : Settings) (shell : Shell.Runner) (clone : Clone) :
    clone.run settings shell = (do
      let manifest ← clone.prepare settings
      runHooks shell clone.destination manifest.configuration.postCloneCommands) := by
  unfold run prepare
  rw [bind_assoc]
  refine bind_congr fun given => ?_
  rw [bind_assoc]
  refine bind_congr fun disk => ?_
  split <;> simp only [bind_assoc]

/-- What is filled fails in no way in which a command does. -/
theorem not_isOfHook {failure : Failure} (h : failure.IsOfFilling) : ¬ failure.IsOfHook := by
  cases failure with
  | hook => exact h.elim
  | _ => exact id

/-- **A clone comes to its commands**: its variables are there, a repository was fetched to where nothing was, and
what was fetched was bound, filled and pruned. -/
structure ComesToCommands (settings : Settings) (clone : Clone) (world : World) (given : Variables)
    (fetched : World) (manifest : Manifest) (filled : World) : Prop where
  starts : clone.Starts world given
  fetched_eq : (clone.repository.cloneInto clone.destination).on world = (.ok (), fetched)
  filled_eq : (clone.fill settings given).on fetched = (.ok manifest, filled)
  fills : ∃ bare vars written, clone.Fills settings given manifest fetched bare vars written filled

namespace ComesToCommands

variable {given : Variables} {fetched : World}

theorem runs (h : clone.ComesToCommands settings world given fetched manifest filled) (shell : Shell.Runner) :
    Shell.RunsInOrder shell clone.destination manifest.configuration.postCloneCommands filled
      ((clone.run settings shell).on world) := by
  rw [run_on_filled shell h.starts h.fetched_eq h.filled_eq]
  exact runHooks_inOrder shell _ _ filled

/-- **The directory of a clone is where it was fetched** when its commands come. -/
theorem destination_found (h : clone.ComesToCommands settings world given fetched manifest filled)
    (hsound : world.disk.Sound) (hvacant : world.disk.IsVacant clone.destination)
    (hname : IsName settings.manifestFile) :
    ∃ room, fetched.disk.canonical clone.destination = .ok room ∧
      filled.disk.find true clone.destination = .ok (room, .directory) := by
  obtain ⟨room, hfetched⟩ := exists_fetched hsound hvacant h.fetched_eq
  have hfilled := (fill_ends hname given hfetched).done_of_ok h.filled_eq
  exact ⟨room, hfetched.reaches.canonical_eq, hfilled.reaches.find_eq⟩

/-- The directory stays if the shell spares it, however the commands end. -/
theorem destination_kept (h : clone.ComesToCommands settings world given fetched manifest filled)
    {room : Place} (hfind : filled.disk.find true clone.destination = .ok (room, .directory))
    (hspares : Shell.Spares shell clone.destination) :
    ((clone.run settings shell).on world).2.disk.has clone.destination = true := by
  obtain ⟨attempts, hattempts, _⟩ := h.runs shell
  exact hattempts.spares hspares (has_iff.mpr ⟨room, _, hfind⟩)

end ComesToCommands

/-- **A clone that was prepared comes to its commands**, and one that was not fails as no command does. -/
theorem prepare_ends (settings : Settings) (clone : Clone) (world : World) :
    (clone.prepare settings).Ends world
      (fun manifest filled => ∃ given fetched,
        clone.ComesToCommands settings world given fetched manifest filled)
      fun failure _ => ¬ failure.IsOfHook := by
  refine .bind ((Work.Ends.self _ world).mono (fun given mid hload => ?_) fun failure _ hload =>
    not_isOfHook ((loadVariables_failsWith _).of_error hload))
  obtain rfl : world = mid := ((loadVariables_ends _ world).done_of_ok hload).symm
  refine .bind (.disk ?_)
  by_cases hthere : world.disk.has clone.destination = true
  · rw [if_pos hthere]
    exact .bind (.fail id)
  · rw [if_neg hthere]
    refine .bind ((Work.Ends.self _ world).mono (fun _ fetched hfetch => ?_) fun failure _ hfetch => ?_)
    -- A clone that cannot be filled is taken away, which leaves the failure as it is.
    · refine .onFailure ((Work.Ends.self _ fetched).mono (fun manifest filled hfill => ?_)
        fun failure _ hfill => ?_)
      · exact ⟨given, fetched, ⟨hload, by simpa using hthere⟩, hfetch, hfill, exists_fills hfill⟩
      · have hnot := not_isOfHook ((fill_failsWith settings clone given).of_error hfill)
        exact .of_after (fun _ => _) hnot
    · exact not_isOfHook ((cloneInto_failsWith _ _).of_error hfetch)

/-- **The commands of a clone are run in order, on the finished clone.** Whoever the shell is, they are tried up to
the first one that fails, which is named then. A clone that is not fetched, bound, filled and pruned fails without
them, in the same way with any shell. Otherwise they are run in what was made so, and what they leave is left. -/
theorem run_commands_in_order (settings : Settings) (clone : Clone) (world : World) :
    (∀ (shell : Shell.Runner) (directory : String) (commands : List (List String)) (before : World),
      Shell.RunsInOrder shell directory commands before ((runHooks shell directory commands).on before)) ∧
    (∀ line fault, ∃ front back,
      (Failure.hook line fault).message = front ++ "'" ++ line ++ "'" ++ back) ∧
    ((∃ failure after, ¬ failure.IsOfHook ∧
        ∀ shell, (clone.run settings shell).on world = (.error failure, after)) ∨
      ∃ given fetched manifest filled, clone.ComesToCommands settings world given fetched manifest filled ∧
        (∀ shell, Shell.RunsInOrder shell clone.destination manifest.configuration.postCloneCommands filled
          ((clone.run settings shell).on world)) ∧
        (world.disk.Sound → world.disk.IsVacant clone.destination → IsName settings.manifestFile →
          (∃ room, fetched.disk.canonical clone.destination = .ok room ∧
            filled.disk.find true clone.destination = .ok (room, .directory)) ∧
          ∀ shell, Shell.Spares shell clone.destination →
            ((clone.run settings shell).on world).2.disk.has clone.destination = true)) := by
  refine ⟨runHooks_inOrder, Failure.exists_message_hook, ?_⟩
  have hends := prepare_ends settings clone world
  rcases hprepare : (clone.prepare settings).on world with ⟨failure | manifest, filled⟩
  · refine Or.inl ⟨failure, filled, hends.failed_of_error hprepare, fun shell => ?_⟩
    rw [run_eq_prepare, Work.on_bind, hprepare]
  · obtain ⟨given, fetched, hcomes⟩ := hends.done_of_ok hprepare
    refine Or.inr ⟨given, fetched, manifest, filled, hcomes, hcomes.runs, fun hsound hvacant hname => ?_⟩
    obtain ⟨room, hroom, hfind⟩ := hcomes.destination_found hsound hvacant hname
    exact ⟨⟨room, hroom, hfind⟩, fun shell hspares => hcomes.destination_kept hfind hspares⟩

/-- A shell that makes a directory for each line, called by the number of the line, which is how the line ends,
too: only the first one is a success. -/
def markingShell : Shell.Runner := fun number _ place disk =>
  let mark := place ++ [toString number]
  (.exited number, "", "", if (disk.at? mark).isSome then disk else disk.put mark .directory)

theorem markingShell_spares (path : String) : Shell.Spares markingShell path := by
  refine .of_grown (fun number line place disk => ?_) path
  show Grown disk (if (disk.at? (place ++ [toString number])).isSome then disk else disk.put _ .directory)
  split
  · exact .refl disk
  · rename_i hnone
    refine ⟨rfl, fun other entry hat => ⟨entry, ?_, entry.alike_refl⟩⟩
    have hne : other ≠ place ++ [toString number] := by
      rintro rfl
      exact hnone (hat ▸ rfl)
    rw [at?_put_of_ne _ _ hne, hat]

/-- A world with a repository whose template has three commands and a blank one. -/
def commandsWorld : World where
  disk := { directory := [], tree := [(["o"], .directory), (["o", "objects"], .history
    { head := "main", tags := [], branches := [("main", [([".cloney.yaml"],
      .file ("\x7bname: a, template_version: 1.0.0, manifest_version: v2, configuration: " ++
        "\x7bpost_clone_commands: [[make, it], [' '], [try, it], [never]]\x7d\x7d").toUTF8 false)])] })] }

/-- A clone of it. -/
def commandsClone : Clone where
  repository := { url := "/o" }
  output? := some "c"
  variablesFrom := ""

/-- The second of the commands fails, and so the third one is not tried; the clone stays with what both have
made. -/
theorem run_commands_in_order_failing : ∃ attempts filled after,
    (commandsClone.run .standard markingShell).on commandsWorld =
      (.error (.hook "try it" (.exited 1)), after) ∧
    Shell.Attempts markingShell "c" 0 filled attempts after ∧
    attempts.map Shell.Attempt.line = ["make it", "try it"] ∧
    after.disk.has "c" = true ∧ after.disk.hasDirectory "c/1" = true ∧ after.disk.has "c/2" = false := by
  -- How it ends is computed. Which lines were tried cannot be seen from that, and comes from the theorem.
  have hended : (match (commandsClone.run .standard markingShell).on commandsWorld with
      | (result, after) => decide (result = .error (.hook "try it" (.exited 1)) ∧
        after.disk.hasDirectory "c/1" = true ∧ after.disk.has "c/2" = false)) = true := by decide +kernel
  rcases hrun : (commandsClone.run .standard markingShell).on commandsWorld with ⟨result, after⟩
  rw [hrun] at hended
  obtain ⟨rfl, hmarks⟩ := of_decide_eq_true hended
  have hlines : ((commandsClone.fill .standard []).on
      ((commandsClone.repository.cloneInto commandsClone.destination).on commandsWorld).2).1.map (fun manifest =>
        Shell.commandLines manifest.configuration.postCloneCommands) = .ok ["make it", "try it", "never"] := by
    decide +kernel
  obtain ⟨_, _, ⟨failure, left, hnot, hfails⟩ | hready⟩ :=
    run_commands_in_order .standard commandsClone commandsWorld
  · rw [hfails markingShell, Prod.mk.injEq, Except.error.injEq] at hrun
    exact absurd (hrun.1 ▸ trivial) hnot
  · obtain ⟨given, fetched, manifest, filled, hcomes, hruns, hstays⟩ := hready
    obtain ⟨attempts, hattempts, houtcome, _⟩ := hruns markingShell
    obtain ⟨_, hspared⟩ := hstays (by decide +kernel) (show commandsWorld.disk.IsVacant "c" by decide +kernel)
      (by decide)
    have hthere := hspared markingShell (markingShell_spares "c")
    rw [hrun] at hattempts houtcome hthere
    obtain rfl : given = [] := (Except.ok.inj (congrArg Prod.fst hcomes.starts.loaded)).symm
    rw [hcomes.fetched_eq, hcomes.filled_eq, Except.map, Except.ok.injEq] at hlines
    rw [hlines] at houtcome
    obtain ⟨front, rest, hfront, htried⟩ := houtcome.exists_of_error
    obtain rfl : front = ["make it"] := by
      match front with
      | [] => simp at hfront
      | [line] => simp_all
      | [_, _] => simp at hfront
      | _ :: _ :: _ :: _ => simp at hfront
    exact ⟨attempts, filled, after, rfl, hattempts, htried, hthere, hmarks⟩

end Stencil.Clone
