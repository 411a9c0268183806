import ScriptHost.Program.Run

/-!
# How processes are started

A runner gets the process of an invocation ready, which may fail, and then waits for it
(`Runner.run_eq`). What a process that is ready has been handed is what its invocation asks for on
the host.
-/

namespace ScriptHost

namespace Invocation

variable {i : Invocation} {program : String} {host : Host} {start : Start}

/-- A process starts where nothing keeps its invocation from being handed to it, and its working
directory and its tool are found. -/
theorem start_eq_ok_iff :
    i.start program host = .ok start ↔
      i.hasNul host = false ∧ ∃ view tool, i.viewOn host = .ok view ∧
        view.findTool (i.searchPathOn host) program = .ok tool ∧
        start = ⟨view, i.blockOn host, tool⟩ := by
  rw [Invocation.start]
  cases hnul : i.hasNul host with
  | true => exact iff_of_false nofun nofun
  | false =>
  cases hview : i.viewOn host with
  | error fault => exact iff_of_false nofun nofun
  | ok view =>
  cases htool : view.findTool (i.searchPathOn host) program with
  | error fault => simp [bind, Except.bind, htool]
  | ok tool => simp [bind, Except.bind, pure, Except.pure, htool, eq_comm]

/-- A process that starts is handed the environment that its invocation asks for on the host. -/
theorem environment_of_start (h : i.start program host = .ok start) :
    start.environment = i.blockOn host := by
  obtain ⟨-, view, tool, -, -, rfl⟩ := start_eq_ok_iff.mp h
  rfl

/-- Where nothing keeps an invocation from being handed to a process, a program that is named by a
path starts if it is installed there. -/
theorem start_of_lookup {place : List String} {tool : String} (hcwd : i.cwd = none)
    (hnul : i.hasNul host = false) (hpath : '/' ∈ program.toList)
    (hlookup : host.view.tree.lookup host.view.cwd program = .ok (place, .program tool)) :
    i.start program host = .ok ⟨host.view, i.blockOn host, tool⟩ := by
  have hview : i.viewOn host = .ok host.view := by rw [viewOn, hcwd]; rfl
  have hslash : program.contains '/' = true := by
    rwa [String.contains_char_eq, decide_eq_true_iff]
  have hempty : program ≠ "" := by
    rintro rfl
    cases hpath
  have htool : host.view.findTool (i.searchPathOn host) program = .ok tool := by
    rw [FileView.findTool, if_neg hempty, if_pos hslash, FileView.toolAt, hlookup]
    rfl
  exact start_eq_ok_iff.mpr ⟨hnul, _, _, hview, htool, rfl⟩

end Invocation

namespace Runner

variable {r : Runner} {i : Invocation} {host : Host} {ceiling : Duration} {start : Start}

/-- A process that is ready has been started as its invocation asks. -/
theorem start_of_ready (h : r.ready i host = .ok (ceiling, start)) :
    ∃ program, i.argv.head? = some program ∧ i.start program host = .ok start := by
  rw [ready] at h
  split at h
  · cases h
  · cases h
  · rename_i program arguments limit hargv hceiling
    split at h
    · cases hstart : i.start program host with
      | error fault =>
          rw [hstart] at h
          cases h
      | ok found =>
          rw [hstart] at h
          cases h
          exact ⟨program, by rw [hargv, List.head?_cons], hstart⟩
    · cases h

/-- Getting ready breaks off where there is a program to start, but no instant of the clock at which
its time is up. -/
theorem ready_eq_clockOverflow_iff :
    r.ready i host = .error .clockOverflow ↔
      i.argv ≠ [] ∧ ∀ c, r.ceiling? = some c → hasDeadline c host = false := by
  rw [ready]
  split
  · rename_i hargv
    simp [hargv]
  · rename_i hargv hceiling
    simp [hargv, hceiling]
  · rename_i program arguments limit hargv hceiling
    cases hdeadline : hasDeadline limit host with
    | false => simp [hargv, hceiling, hdeadline]
    | true =>
        -- whatever becomes of a process that is started, the clock is not to blame
        cases i.start program host <;> simp [hceiling, hdeadline]

/-- Waiting for a process does not break off. -/
theorem await_ne_clockOverflow :
    ((await ceiling i start).run.run host).1 ≠ .error .clockOverflow := by
  show (await ceiling i start host).1 ≠ _
  unfold await ExceptT.mk
  dsimp only
  split
  · split <;> simp
  · simp

/-- Nothing happens where no process gets ready; one that is ready is waited for. -/
theorem run_eq :
    (r.run i).run.run host =
      match r.ready i host with
      | .error fault => (.error fault, host)
      | .ok (ceiling, start) => (await ceiling i start).run.run host := by
  have hrun : (r.run i).run.run host =
      ((MonadExcept.ofExcept (r.ready i host) >>= fun ready =>
        await ready.1 i ready.2 : HostM Error ProcessOutput)).run.run host := rfl
  rw [hrun]
  cases r.ready i host <;> rfl

end Runner

end ScriptHost
