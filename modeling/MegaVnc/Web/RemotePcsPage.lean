import Mathlib.Data.Finset.Basic
import MegaVnc.Service.RemotePcService

/-! # The page of the PCs

The template `remote-pcs.html` renders a row for each PC of the list. The script
of the page, `remote-pcs.js`, changes the rows as status messages arrive. The template
formats dates in the locale of the request, the messages do in that of the server. The
classes of a button are a set: the style of the page does not depend on their
order.
-/

namespace MegaVnc

open Relational

/-- A format of dates for the pattern `yyyy-MM-dd HH:mm` in some locale, which decides on
the calendar and the digits; there are four or more for the year. -/
structure DateFormat where
  format : Date → String
  length_format : ∀ date, 16 ≤ (format date).length

/-- The classes of the buttons of a row. -/
inductive ButtonClass where
  | btn
  | btnPrimary
  | btnSecondary
  | btnDanger
  | disabled
deriving DecidableEq, Repr

/-- The span in the status cell. -/
structure StatusLabel where
  textClass : String
  text : String
deriving DecidableEq, Repr

/-- A row of the table, with the classes of its two buttons. -/
structure PageRow where
  id : Long
  groupName : String
  name : String
  registeredAt : String
  status : StatusLabel
  connect : Finset ButtonClass
  delete : Finset ButtonClass
deriving DecidableEq

/-! ### The template -/

namespace RemotePcsTemplate

/-- The label of a status, the same in the template and in the script. -/
def statusLabel : Status → StatusLabel
  | .offline => { textClass := "text-secondary", text := "오프라인" }
  | .standby => { textClass := "text-success", text := "온라인(대기중)" }
  | .active => { textClass := "text-info", text := "온라인(사용중)" }

/-- The button for the viewer, as the template renders it. -/
def connectClasses : Status → Finset ButtonClass
  | .offline => {.btn, .btnSecondary, .disabled}
  | .standby => {.btn, .btnPrimary}
  | .active => {.btn, .btnPrimary, .disabled}

/-- The button for the deletion, as the template renders it. -/
def deleteClasses : Status → Finset ButtonClass
  | .offline => {.btn, .btnDanger}
  | .standby | .active => {.btn, .btnDanger, .disabled}

/-- `#dates.format` takes the locale of the request. Of null it is null, and the cell is
empty then. -/
def registeredAt (dateFormat : DateFormat) : Option Date → String
  | none => ""
  | some assignedAt => dateFormat.format assignedAt

/-- The row of a PC as the template renders it. -/
def row (dateFormat : DateFormat) (db : Database) (remotePc : ResponseRemotePcDto) : PageRow where
  id := remotePc.id
  groupName := ((db.segment.findById remotePc.group).bind Group.groupName).getD ""
  name := remotePc.name
  registeredAt := registeredAt dateFormat remotePc.assignedAt
  status := statusLabel remotePc.status
  connect := connectClasses remotePc.status
  delete := deleteClasses remotePc.status

end RemotePcsTemplate

/-! ### The script -/

/-- What `JSON.parse` makes of a message of `sendStatusUpdate`. -/
structure StatusData where
  id : Long
  status : String
  registeredAt : String

/-- `setRemotePcStatus` formats the registration time by a `SimpleDateFormat` in the locale
of the server; an unassigned PC is told with an empty one. -/
def StatusUpdate.data (dateFormat : DateFormat) (update : StatusUpdate) : StatusData where
  id := update.pcId
  status := update.status
  registeredAt :=
    match update.registeredAt with
    | none => ""
    | some assignedAt => dateFormat.format assignedAt

namespace PageRow

/-- A change made to the buttons of the row that have a class. -/
def find (selector : ButtonClass) (change : Finset ButtonClass → Finset ButtonClass)
    (row : PageRow) : PageRow :=
  { row with
    connect := if selector ∈ row.connect then change row.connect else row.connect
    delete := if selector ∈ row.delete then change row.delete else row.delete }

/-- `addClass` of jQuery. -/
def addClass (added : ButtonClass) (classes : Finset ButtonClass) : Finset ButtonClass :=
  insert added classes

/-- `removeClass` of jQuery. -/
def removeClass (removed : ButtonClass) (classes : Finset ButtonClass) : Finset ButtonClass :=
  classes.erase removed

/-- The handler of `socket.onmessage`, for the row of the message's PC. -/
def onmessage (data : StatusData) (row : PageRow) : PageRow :=
  let registeredAt := if data.registeredAt = "null" then "" else data.registeredAt
  let row := { row with registeredAt := registeredAt }
  if data.status = "OFFLINE" then
    { row with status := { textClass := "text-secondary", text := "오프라인" } }
      |>.find .btnPrimary (addClass .disabled)
      |>.find .btnPrimary (fun classes => addClass .btnSecondary (removeClass .btnPrimary classes))
      |>.find .btnDanger (removeClass .disabled)
  else if data.status = "STANDBY" then
    { row with status := { textClass := "text-success", text := "온라인(대기중)" } }
      |>.find .btnSecondary (removeClass .disabled)
      |>.find .btnSecondary (fun classes =>
        addClass .btnPrimary (removeClass .btnSecondary classes))
      |>.find .btnPrimary (removeClass .disabled)
      |>.find .btnDanger (addClass .disabled)
  else if data.status = "ACTIVE" then
    { row with status := { textClass := "text-info", text := "온라인(사용중)" } }
      |>.find .btnPrimary (addClass .disabled)
      |>.find .btnSecondary (fun classes =>
        addClass .disabled (addClass .btnPrimary (removeClass .btnSecondary classes)))
      |>.find .btnDanger (addClass .disabled)
  else row

end PageRow

/-- The rows with the id of the message are changed, by `data-pc-id`. -/
def onmessage (rows : List PageRow) (data : StatusData) : List PageRow :=
  rows.map fun row => if row.id = data.id then row.onmessage data else row

/-! ### The rows a message changes -/

@[simp] theorem PageRow.onmessage_id (row : PageRow) (data : StatusData) :
    (row.onmessage data).id = row.id := by
  unfold PageRow.onmessage
  dsimp only
  split_ifs <;> rfl

/-- A message changes the row of its PC alone. -/
theorem mem_onmessage {rows : List PageRow} {data : StatusData} {row : PageRow} :
    row ∈ onmessage rows data ↔ (row ∈ rows ∧ row.id ≠ data.id) ∨
      ∃ old ∈ rows, old.id = data.id ∧ old.onmessage data = row := by
  simp only [onmessage, List.mem_map]
  constructor
  · rintro ⟨old, present, rfl⟩
    by_cases own : old.id = data.id
    · rw [if_pos own]
      exact Or.inr ⟨old, present, own, rfl⟩
    · rw [if_neg own]
      exact Or.inl ⟨present, own⟩
  · rintro (⟨present, other⟩ | ⟨old, present, own, rfl⟩)
    · exact ⟨row, present, if_neg other⟩
    · exact ⟨old, present, if_pos own⟩

/-- The rows of other PCs stay. -/
theorem mem_onmessage_of_ne {rows : List PageRow} {data : StatusData} {row : PageRow}
    (other : row.id ≠ data.id) : row ∈ onmessage rows data ↔ row ∈ rows := by
  rw [mem_onmessage]
  constructor
  · rintro (⟨present, -⟩ | ⟨old, -, own, rfl⟩)
    · exact present
    · exact (other ((old.onmessage_id data).trans own)).elim
  · exact fun present => Or.inl ⟨present, other⟩

/-! ### A message redraws the row -/

open RemotePcsTemplate

variable {dateFormat : DateFormat} {db : Database}

theorem DateFormat.format_ne (dateFormat : DateFormat) (date : Date) {text : String}
    (short : text.length < 16) : dateFormat.format date ≠ text := by
  rintro rfl
  exact Nat.not_lt_of_le (dateFormat.length_format date) short

/-- No registration time is shown as the text of a null. -/
theorem registeredAt_ne_null (assignedAt : Option Date) :
    registeredAt dateFormat assignedAt ≠ "null" := by
  cases assignedAt with
  | none =>
      change "" ≠ "null"
      decide
  | some date => exact dateFormat.format_ne date (by decide)

theorem data_registeredAt (update : StatusUpdate) :
    (update.data dateFormat).registeredAt = registeredAt dateFormat update.registeredAt := by
  rw [StatusUpdate.data]
  cases update.registeredAt <;> rfl

/-- The status shown before does not matter: the buttons change class step by
step to those of the new status. -/
theorem PageRow.onmessage_eq {row : PageRow} {shown : Status}
    (connect : row.connect = connectClasses shown) (delete : row.delete = deleteClasses shown)
    (status : Status) {registeredAt : String} (told : registeredAt ≠ "null") (id : Long) :
    row.onmessage { id := id, status := status.toValue, registeredAt := registeredAt } =
      { row with
        registeredAt := registeredAt
        status := statusLabel status
        connect := connectClasses status
        delete := deleteClasses status } := by
  cases row
  cases connect
  cases delete
  simp only [onmessage, told, ↓reduceIte]
  cases status with
  | offline =>
      simp only [Status.toValue, ↓reduceIte, PageRow.mk.injEq, find, statusLabel, true_and]
      cases shown <;> decide
  | standby =>
      simp only [Status.toValue, String.reduceEq, ↓reduceIte, PageRow.mk.injEq, find, statusLabel,
        true_and]
      cases shown <;> decide
  | active =>
      simp only [Status.toValue, String.reduceEq, ↓reduceIte, PageRow.mk.injEq, find, statusLabel,
        true_and]
      cases shown <;> decide

end MegaVnc
