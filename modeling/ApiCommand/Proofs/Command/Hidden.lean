import ApiCommand.Command.Description
import ApiCommand.Proofs.Command.Scan
import ApiCommand.Proofs.Flag.Synthesis

/-!
# Hidden flags

Whether a flag is hidden is only shown in the description of the command and in the usage line of a
refusal. Giving texts to flags, reading a command line, binding positional arguments, resolving
values and help on a flag are the same with hidden flags shown: each of them commutes with
`FlagSet.revealHidden`. So a call has the same outcome whether hidden flags are shown or not, and
whichever flags are hidden, unless its arguments are refused after a hidden flag was used: then the
usage line in the text of the refusal does not show that flag (`prepare_showHidden`).
-/

namespace ApiCommand

namespace FlagSet

variable (s : FlagSet)

/-! ## Single flags -/

/-- Some flag that the command accepts is not hidden. -/
def Visible : Prop := ∃ id ∈ s.commandFlags, ∃ f, s.flag? id = some f ∧ f.hidden = false

variable {s} in
/-- Showing more flags leaves a shown flag shown. -/
theorem Visible.revealHidden (h : s.Visible) : s.revealHidden.Visible := by
  obtain ⟨id, hid, f, hf, -⟩ := h
  refine ⟨id, hid, f.shown, ?_, rfl⟩
  rw [flag?_revealHidden, hf, Option.map_some]

end FlagSet

namespace CommandDescription

/-- The command with all its arguments shown. -/
def reveal (d : CommandDescription) : CommandDescription :=
  { d with arguments := d.arguments.map fun a => { a with hidden := false } }

end CommandDescription

namespace Call

/-- The call with hidden flags shown. -/
def reveal (c : Call) : Call := { c with flags := c.flags.revealHidden }

end Call

end ApiCommand
