/-
  Hmn.Tasks.Tasks — creating a task.

  `create_task` draws an identifier, saves the row in one transaction and
  records the audit event in another one.  Everything later in the life of a
  worker task is a single transaction (`Hmn.Store.Store`).
-/
import Hmn.Store.Calls

namespace Hmn

open Framework Py

/-- The row `create_task` saves. -/
def newTask (uuid nodeId command risk createdBy executor : String) (createdAt : Timestamp) :
    Task where
  taskId := "task_" ++ uuid
  nodeId := nodeId
  command := command
  risk := risk
  status := .pending
  createdBy := createdBy
  createdAt := createdAt
  executor := executor

/-- `create_task`. -/
def createTask (nodeId command risk createdBy executor : String) : Py Task := do
  let uuid ← call .uuid4
  let createdAt ← call .now
  let task := newTask uuid nodeId command risk createdBy executor createdAt
  call (.saveTask task)
  call (.recordAudit "task" "task" task.taskId "create" "ok"
    [("node_id", .str nodeId), ("command", .str command), ("risk", .str risk),
      ("executor", .str executor)])
  return task

/-- A task that was created is stored as it is answered. -/
theorem createTask_run (env : Env) (w : World) (nodeId command risk createdBy executor : String) :
    ∃ uuid createdAt w', (createTask nodeId command risk createdBy executor).run (exec env) w
        = (.ok (newTask uuid nodeId command risk createdBy executor createdAt), w')
      ∧ w'.store.tasks.find? ("task_" ++ uuid)
        = some (newTask uuid nodeId command risk createdBy executor createdAt) :=
  ⟨_, _, _, rfl, Table.find?_upsert_self _ _⟩

end Hmn
