import PowerScreen.Library.LineBuffer
import PowerScreen.Library.Run

/-! # Output of a shell command

While a command runs, Klipper passes its output on line by line. The process writes into a
pipe at its own times, the reactor reads at others, at most 4096 bytes each time; the output is
ASCII, so that a byte is a character. When the process ends or is ended, what was read of a
last line is passed on, and what is still in the pipe is lost.
-/
namespace PowerScreen.InputShaper
open Library

structure ShellCommand where
  /-- Written by the process and not read yet. -/
  pipe : List Char := []
  partialOutput : List Char := []
  /-- The output that `respond_info` was called with. -/
  responses : List (List Char) := []

namespace ShellCommand

/-- `_process_output` -/
def processOutput (c : ShellCommand) (data : List Char) : ShellCommand :=
  let data := c.partialOutput ++ data
  if '\n' ∉ data then { c with partialOutput := data }
  else if data.getLast? ≠ some '\n' then
    -- `data[split:]` and `data[:split]`, behind the last line end
    { c with
      partialOutput := data.rtakeWhile (· ≠ '\n')
      responses := c.responses ++ [data.rdropWhile (· ≠ '\n')] }
  else { c with partialOutput := [], responses := c.responses ++ [data] }

/-- What the two sides of the pipe do. -/
inductive Op where
  | writes (t : List Char)
  /-- The reactor finds so many characters to read. -/
  | reads (n : ℕ)

def step (c : ShellCommand) : Op → ShellCommand
  | .writes t => { c with pipe := c.pipe ++ t }
  | .reads n => { c with pipe := c.pipe.drop (min n 4096) }.processOutput (c.pipe.take (min n 4096))

/-- What of the output is passed on by the end of `cmd_RUN_SHELL_COMMAND`. -/
def output (c : ShellCommand) : List (List Char) :=
  if c.partialOutput = [] then c.responses else c.responses ++ [c.partialOutput]

/-- All messages of `cmd_RUN_SHELL_COMMAND`; `complete` says that the process ended in time. -/
def messages (name : String) (c : ShellCommand) (complete : Bool) : List (List Char) :=
  ("Running Command \x7b".toList ++ name.toList ++ "\x7d...:".toList) :: (c.output ++
    ["Command \x7b".toList ++ name.toList ++
      if complete then "\x7d finished\n".toList else "\x7d timed out".toList])

/-- The text that the operations write. -/
def written (ops : List Op) : List Char :=
  ops.flatMap fun
    | .writes t => t
    | .reads _ => []

def buffer (c : ShellCommand) : LineBuffer Char := ⟨c.partialOutput, c.responses⟩

theorem flush_buffer (c : ShellCommand) : c.buffer.flush = c.output := rfl

/-- The three cases are those of a line buffer. -/
theorem buffer_processOutput (c : ShellCommand) (data : List Char) :
    (c.processOutput data).buffer = c.buffer.feed '\n' data := by
  have hcases : ∀ t : List Char, '\n' ∈ t → ¬ t.getLast? ≠ some '\n' →
      t.rtakeWhile (· ≠ '\n') = [] ∧ t.rdropWhile (· ≠ '\n') = t := by
    intro t ht hlast
    have hlast' : ∀ hne : t ≠ [], t.getLast hne = '\n' := fun hne => by
      rw [List.getLast?_eq_some_getLast hne, not_ne_iff, Option.some_inj] at hlast
      exact hlast
    rw [List.rtakeWhile_eq_nil_iff, List.rdropWhile_eq_self_iff]
    exact ⟨fun hne => by simp [hlast' hne], fun hne => by simp [hlast' hne]⟩
  by_cases hmem : '\n' ∈ c.partialOutput ++ data
  · have hfeed : c.buffer.feed '\n' data = ⟨(c.partialOutput ++ data).rtakeWhile (· ≠ '\n'),
        c.responses ++ [(c.partialOutput ++ data).rdropWhile (· ≠ '\n')]⟩ := if_pos hmem
    rw [hfeed, processOutput, if_neg (not_not.mpr hmem)]
    split_ifs with hlast
    · rfl
    · obtain ⟨htake, hdrop⟩ := hcases _ hmem hlast
      rw [htake, hdrop]
      rfl
  · have hfeed : c.buffer.feed '\n' data = ⟨c.partialOutput ++ data, c.responses⟩ := if_neg hmem
    rw [hfeed, processOutput, if_pos hmem]
    rfl

/-- Everything that is written is still in the pipe or was fed to the buffer. -/
def Fed (total : List Char) (c : ShellCommand) : Prop :=
  ∃ read, read ++ c.pipe = total ∧ c.buffer.Framed '\n' read

theorem Fed.step {total : List Char} {c : ShellCommand} (h : c.Fed total) (op : Op) :
    (c.step op).Fed (total ++ written [op]) := by
  obtain ⟨read, htotal, hframed⟩ := h
  cases op with
  | writes t => exact ⟨read, by simp [ShellCommand.step, written, ← htotal], hframed⟩
  | reads n =>
    refine ⟨read ++ c.pipe.take (min n 4096), ?_, ?_⟩
    · have hpipe : (c.step (.reads n)).pipe = c.pipe.drop (min n 4096) := by
        simp only [ShellCommand.step, processOutput]
        split_ifs <;> rfl
      rw [hpipe, List.append_assoc, List.take_append_drop, htotal]
      simp [written]
    · rw [ShellCommand.step, buffer_processOutput]
      exact hframed.feed _

theorem fed_of_run (ops : List Op) : (Run.run step {} ops).Fed (written ops) := by
  have hkeep : ∀ (ops : List Op) (c : ShellCommand) (total : List Char), c.Fed total →
      (Run.run ShellCommand.step c ops).Fed (total ++ written ops) := by
    intro ops
    induction ops with
    | nil =>
      intro c total h
      simpa [written] using h
    | cons op ops ih =>
      intro c total h
      have hsplit : written (op :: ops) = written [op] ++ written ops := by simp [written]
      rw [Run.run_cons, hsplit, ← List.append_assoc]
      exact ih _ _ (h.step op)
  exact hkeep ops {} [] ⟨[], rfl, LineBuffer.framed_nil⟩

end ShellCommand

end PowerScreen.InputShaper
