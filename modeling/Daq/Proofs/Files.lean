import Daq.Files
import Daq.Proofs.Text.Utf8

set_option autoImplicit false

/-!
# Reading what was written to a file

A file that was written is read back, and no other file changes.

## Main results

* `Daq.Files.read?_write?` — the octets of a file that was written, and of all others.
* `Daq.Files.readText?_write?` — the text of a file that was written.
* `Daq.Files.exists_write?_empty` — the first file can be written.
-/

namespace Daq.Files

variable {f f' : Files} {path : String} {octets : List Nat}

/-- What writing does: the path can mean a file, and its entry is replaced. -/
lemma write?_eq_some (h : f.write? path octets = some f') :
    Path.isDirectory path = false ∧
      f'.contents = f.contents.insert (nameOf (Path.components path)) octets := by
  unfold write? at h
  dsimp only at h
  split at h
  · cases h
  · rename_i hfree
    simp only [Bool.or_eq_true, not_or, Bool.not_eq_true] at hfree
    exact ⟨hfree.1.1, congrArg contents (Option.some.inj h).symm⟩

/-- **A file that was written is read back, and files with other names stay as they are.** -/
theorem read?_write? (h : f.write? path octets = some f') (other : String) :
    f'.read? other =
      if Path.isDirectory other = false ∧
          nameOf (Path.components other) = nameOf (Path.components path) then some octets
      else f.read? other := by
  obtain ⟨-, hcontents⟩ := write?_eq_some h
  unfold read?
  rw [hcontents, Table.get?_insert]
  by_cases hdir : Path.isDirectory other = true
  · simp [hdir]
  · by_cases hname : nameOf (Path.components other) = nameOf (Path.components path)
    · simp [hdir, hname]
    · simp [hdir, hname]

/-- **A text that was written to a file is read back.** -/
theorem readText?_write? {text : String}
    (h : f.write? path (Text.Utf8.encode text.toList) = some f') :
    f'.readText? path = some text := by
  obtain ⟨hdir, -⟩ := write?_eq_some h
  rw [readText?, read?_write? h, if_pos ⟨hdir, rfl⟩]
  simp [Text.Utf8.decode?_encode]

/-- Where there are no files, there is room for every path. -/
lemma hasRoomFor_empty (path : String) : ({} : Files).hasRoomFor path = true := by
  simp only [hasRoomFor, List.all_eq_true]
  exact fun _ _ => rfl

/-- Where there are no files, any path that can mean a file can be written. -/
lemma exists_write?_empty (h : Path.isDirectory path = false) (octets : List Nat) :
    ∃ f : Files, ({} : Files).write? path octets = some f := by
  have hfree : ({} : Files).occupies (Path.components path) = false := rfl
  unfold write?
  dsimp only
  rw [if_neg]
  · exact ⟨_, rfl⟩
  · simp [h, hfree, hasRoomFor_empty]

end Daq.Files
