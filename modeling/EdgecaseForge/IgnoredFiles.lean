import EdgecaseForge.RepositoryMaps

namespace Sorting

variable {α : Type*} {le : α → α → Prop} [DecidableRel le] [Std.Total le] [IsTrans α le]
  {p : α → Bool} {xs ys : List α}

end Sorting

namespace EdgecaseForge

open Text RepositoryContext RouteMap

section Paths

variable {r s : Repository} {p q : Path} {file : Path × Bytes}

end Paths

section Collected

variable {r s : Repository} {priority : List Str}

instance keyLe_total (priority : List Str) : Std.Total fun a b : Path × Bytes => keyLe priority a b = true where
  total a b := by
    unfold keyLe
    rcases le_total (asPosix a.1) (asPosix b.1) with h | h <;>
      cases priority.contains (asPosix a.1) <;> cases priority.contains (asPosix b.1) <;> simp [h]

instance keyLe_trans (priority : List Str) : IsTrans (Path × Bytes) fun a b => keyLe priority a b = true where
  trans a b c hab hbc := by
    unfold keyLe at *
    cases ha : priority.contains (asPosix a.1) <;> cases hb : priority.contains (asPosix b.1) <;>
      cases hc : priority.contains (asPosix c.1) <;> simp_all
    · exact hab.trans hbc
    · exact hab.trans hbc

end Collected

section Mapped

variable {r s : Repository} {py : PythonSource} {entry : Path × Option Bytes} {p : Path}
  {content : Bytes}

end Mapped

section Prepare

variable {r s : Repository} {py : PythonSource}

/-- The library on empty modules. -/
def emptyModules : PythonSource where
  parse := fun _ => .ok []
  lower := Text.lower

end Prepare

end EdgecaseForge
