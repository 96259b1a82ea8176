import MegaVnc.System.DomainIntegrity

/-! # One member for each username

The column is unique, and a registration also looks for a missing name, which
the column does not keep apart. So a session finds its member by the username as
long as the member is there.
-/

namespace MegaVnc

open Relational Application

/-- A username, and the missing one, is that of one member. -/
def UsernamesApart (db : Database) : Prop :=
  (db.member.rows.map Member.username).Nodup

variable {environment : Environment} {world : World} {operation : Operation}
  {db next : Database} {member : Member}

/-- An operation keeps usernames apart where the administrator is there. -/
theorem DirectoryEffect.usernamesApart (effect : DirectoryEffect environment db operation next)
    (admin : ∃ member ∈ db.member.rows, member.username = some "admin")
    (apart : UsernamesApart db) : UsernamesApart next := by
  unfold UsernamesApart at *
  rcases effect.member_rows admin with rows | ⟨user, kept, password, -, -, new, rows⟩ |
    ⟨old, -, -, rows⟩ | ⟨old, present, newPassword, rows⟩
  · rwa [rows]
  · rw [rows]
    refine (Table.nodup_append_row Member.username).mpr ⟨apart, fun row present named => ?_⟩
    exact List.find?_eq_none.mp new row present (decide_eq_true named)
  · rw [rows]
    exact (List.filter_sublist.map _).nodup apart
  · rwa [rows, Table.map_replace Member.username
      (old.changePassword environment.encodePassword newPassword) present rfl rfl]

/-- In every reachable state no two members share a username. -/
theorem Application.Reachable.usernamesApart (reached : Application.Reachable environment world) :
    UsernamesApart world.db := by
  have kept (world : World) (operation : Operation)
      (before : Application.Reachable environment world ∧ UsernamesApart world.db) :
      Application.Reachable environment (step environment world operation) ∧
        UsernamesApart (step environment world operation).db :=
    ⟨before.1.run [operation], (step_directoryEffect environment world operation).usernamesApart
      before.1.intact.alone.named before.2⟩
  have start : UsernamesApart (initial environment).db := by
    obtain ⟨-, member, -⟩ := initial_rows environment
    rw [UsernamesApart, member]
    exact List.nodup_singleton _
  exact (Transition.Reachable.invariant _ reached kept ⟨Transition.Reachable.refl _, start⟩).2

theorem UsernamesApart.findByUsername (apart : UsernamesApart db)
    (present : member ∈ db.member.rows) : db.findByUsername member.username = some member :=
  Table.find?_of_apart Member.username apart present

end MegaVnc
