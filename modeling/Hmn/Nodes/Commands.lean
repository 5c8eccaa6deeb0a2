/-
  Hmn.Nodes.Commands — the command lines that the CLI prints for an operator
  to run.

  Whatever a token, a URL, a user name, a path or a fingerprint holds, the
  line that is printed is the same command: the shell reads the words that
  the CLI meant, with the values it put in, and no more operators than it
  wrote.

  Main results:

      rollback_confirm_words     the words of `hmn rollback … --yes`
      join_command_items         the two forms of the join command
      heartbeat_command_beats    the printed heartbeat is one the API takes
-/
import Hmn.Framework.JsonLine
import Hmn.Framework.ShellWords
import Hmn.Nodes.AuthGate
import Hmn.Rollback.Rollback

namespace Hmn

open Framework Shell Py

/-! ## §1. Quoting. -/

/-- `_shell_quote`. -/
def shellQuote (value : String) : String := Rollback.shellQuote value

theorem toList_shellQuote (s : String) : (shellQuote s).toList
    = if s = "" then ['\x27', '\x27']
      else if s.toList.all isInert then s.toList
      else quoted s.toList := by
  unfold shellQuote Rollback.shellQuote
  split_ifs with hempty hsafe hinert hinert
  · rfl
  · rfl
  · exact absurd hsafe hinert
  · exact absurd hinert hsafe
  · exact String.toList_ofList

/-- **A quoted value stands for the value**, and the quotes are never empty. -/
theorem stands_shellQuote (s : String) : Stands (shellQuote s).toList s.toList := by
  rw [toList_shellQuote]
  split_ifs with hempty hinert
  · subst hempty
    exact stands_single (List.not_mem_nil)
  · exact stands_inert (List.all_eq_true.mp hinert)
  · exact stands_quoted s.toList

theorem shellQuote_ne_nil (s : String) : (shellQuote s).toList ≠ [] := by
  rw [toList_shellQuote]
  split_ifs with hempty hinert
  · exact List.cons_ne_nil _ _
  · exact fun h => hempty (String.toList_eq_nil_iff.mp h)
  · exact List.cons_ne_nil _ _

/-- What a list of arguments says. -/
def values (arguments : List String) : List Item := arguments.map fun a => .value a.toList

theorem toList_join_blank (words : List String) :
    (Text.join " " words).toList = List.intercalate [' '] (words.map String.toList) := by
  unfold Text.join
  rw [String.toList_intercalate]
  rfl

/-- **Quoted words with blanks between them** are read as the values. -/
theorem items_join_quoted (arguments : List String) :
    items (Text.join " " (arguments.map shellQuote)).toList = some (values arguments) := by
  have hline := @line_words ((arguments.map shellQuote).map String.toList) (by
    intro raw hraw
    rw [List.map_map] at hraw
    obtain ⟨a, -, rfl⟩ := List.mem_map.mp hraw
    exact ⟨(stands_shellQuote a).toWritten, shellQuote_ne_nil a⟩)
  rw [toList_join_blank, items_line hline]
  simp only [values, List.map_map]
  congr 2
  funext a
  exact (stands_shellQuote a).item

/-! ## §2. The confirmation of a rollback. -/

/-- The arguments that repeat a rollback and confirm it. -/
def confirmArguments (options : Rollback.Options) : List String :=
  ["hmn", "rollback"]
    ++ (match options.stamp with
      | none => []
      | some stamp => if stamp = "" then [] else ["--stamp", stamp])
    ++ ["--etc-dir", options.etcDir.text, "--backup-dir", options.backupDir.text]
    ++ (if options.skipSystemd then ["--skip-systemd"] else []) ++ ["--yes"]

/-- **The command that confirms a rollback** is read as the rollback with the
same stamp and the same directories, whatever they hold. -/
theorem rollback_confirm_words (options : Rollback.Options) :
    items (Rollback.renderRollbackConfirmCommand options).toList
      = some (values (confirmArguments options)) := by
  have harguments : Rollback.renderRollbackConfirmCommand options
      = Text.join " " ((confirmArguments options).map shellQuote) := by
    unfold Rollback.renderRollbackConfirmCommand confirmArguments shellQuote
    cases options.stamp with
    | none => rfl
    | some stamp =>
      by_cases hstamp : stamp = ""
      · simp [Option.filter, hstamp]
      · simp [Option.filter, hstamp]
  rw [harguments]
  exact items_join_quoted _

/-! ## §3. The join command. -/

/-- `url.rstrip("/")`. -/
def stripSlashes (url : String) : String :=
  String.ofList ((url.toList.reverse.dropWhile (· = '/')).reverse)

/-- `_render_join_command`. -/
def renderJoinCommand (tokenValue masterUrl user : String) (safe : Bool) : String :=
  let token := shellQuote tokenValue
  let url := shellQuote (stripSlashes masterUrl)
  let user := shellQuote user
  if safe then
    "tmp=$(mktemp) && curl -fsSL " ++ url ++ "/scripts/join.sh -o \"$tmp\" && sha256sum \"$tmp\" && "
      ++ "sudo HERMES_JOIN_TOKEN=" ++ token ++ " HERMES_MASTER_URL=" ++ url ++ " HERMES_USER=" ++ user
      ++ " bash \"$tmp\""
  else
    "sudo HERMES_JOIN_TOKEN=" ++ token ++ " HERMES_MASTER_URL=" ++ url ++ " HERMES_USER=" ++ user
      ++ " bash -s < <(curl -fsSL " ++ url ++ "/scripts/join.sh)"

example : renderJoinCommand "hmn_1" "https://hub.example/" "root" false
    = "sudo HERMES_JOIN_TOKEN=hmn_1 HERMES_MASTER_URL=https://hub.example HERMES_USER=root "
      ++ "bash -s < <(curl -fsSL https://hub.example/scripts/join.sh)" := by
  decide +kernel

/-- A fixed word. -/
theorem stands_word (w : String) (h : w.toList.all isInert = true) : Stands w.toList w.toList :=
  stands_inert (List.all_eq_true.mp h)

/-- An assignment before a command. -/
def envAssignment (name value : String) : List Char := name.toList ++ '=' :: (shellQuote value).toList

theorem stands_assignment {name : String} (h : name.toList.all isInert = true) (value : String) :
    Stands (envAssignment name value) (name.toList ++ '=' :: value.toList) := by
  have heq : Stands ['='] ['='] := stands_inert (by decide)
  exact (stands_word name h).append (heq.append (stands_shellQuote value))

theorem envAssignment_ne_nil (name value : String) : envAssignment name value ≠ [] := by
  unfold envAssignment
  simp

/-- The address of the join script. -/
theorem stands_script (url : String) :
    Stands ((shellQuote url).toList ++ "/scripts/join.sh".toList)
      (url.toList ++ "/scripts/join.sh".toList) :=
  (stands_shellQuote url).append (stands_word _ (by decide))

/-- `"$tmp"` is a word in which a variable is expanded. -/
theorem written_tmp : Written "\"$tmp\"".toList where
  inside w cs := by
    -- Character by character: the quote opens, the dollar begins a variable, the quote closes.
    have h₁ : (inWord w).step '"' = some ([], within .double (w ++ ['"'])) := rfl
    have h₂ : ∀ v, (within .double v).step '$'
        = some ([], { stack := [.dollar, .double], word := some (v ++ ['$']) }) := fun _ => rfl
    have h₃ : ∀ v, State.step { stack := [.dollar, .double], word := some v } 't'
        = some ([], within .double (v ++ ['t'])) := fun _ => rfl
    have h₄ : ∀ v, (within .double v).step 'm' = some ([], within .double (v ++ ['m'])) :=
      fun _ => rfl
    have h₅ : ∀ v, (within .double v).step 'p' = some ([], within .double (v ++ ['p'])) :=
      fun _ => rfl
    have h₆ : ∀ v, (within .double v).step '"' = some ([], inWord (v ++ ['"'])) := fun _ => rfl
    show (inWord w).read ('"' :: '$' :: 't' :: 'm' :: 'p' :: '"' :: cs) = _
    rw [read_step h₁, read_step (h₂ _), read_step (h₃ _), read_step (h₄ _), read_step (h₅ _),
      read_step (h₆ _)]
    congr 2
    simp
  start _ cs := by
    have h₁ : State.step {} '"' = some ([], within .double ['"']) := rfl
    have h₂ : (within .double ['"']).step '$'
        = some ([], { stack := [.dollar, .double], word := some ['"', '$'] }) := rfl
    have h₃ : State.step { stack := [.dollar, .double], word := some ['"', '$'] } 't'
        = some ([], within .double ['"', '$', 't']) := rfl
    have h₄ : (within .double ['"', '$', 't']).step 'm'
        = some ([], within .double ['"', '$', 't', 'm']) := rfl
    have h₅ : (within .double ['"', '$', 't', 'm']).step 'p'
        = some ([], within .double ['"', '$', 't', 'm', 'p']) := rfl
    have h₆ : (within .double ['"', '$', 't', 'm', 'p']).step '"'
        = some ([], inWord ['"', '$', 't', 'm', 'p', '"']) := rfl
    show State.read {} ('"' :: '$' :: 't' :: 'm' :: 'p' :: '"' :: cs) = _
    rw [read_step h₁, read_step h₂, read_step h₃, read_step h₄, read_step h₅, read_step h₆]
    rfl

theorem item_tmp : (Token.word "\"$tmp\"".toList).item = .expanded "\"$tmp\"".toList := by
  decide +kernel

/-- The assignments that name the token, the controller and the user. -/
def joinAssignments (tokenValue masterUrl user : String) : List Item :=
  values ["HERMES_JOIN_TOKEN=" ++ tokenValue, "HERMES_MASTER_URL=" ++ stripSlashes masterUrl,
    "HERMES_USER=" ++ user]

/-- The items of the join command that downloads and runs at once. -/
def pipedJoin (tokenValue masterUrl user : String) : List Item :=
  .value "sudo".toList :: joinAssignments tokenValue masterUrl user
    ++ values ["bash", "-s"] ++ [.operator '<', .operator '<', .operator '(']
    ++ values ["curl", "-fsSL", stripSlashes masterUrl ++ "/scripts/join.sh"] ++ [.operator ')']

/-- The items of the one that shows a checksum first, after `tmp=$(mktemp)`. -/
def safeJoin (tokenValue masterUrl user : String) : List Item :=
  [.operator '&', .operator '&']
    ++ values ["curl", "-fsSL", stripSlashes masterUrl ++ "/scripts/join.sh", "-o"]
    ++ [.expanded "\"$tmp\"".toList, .operator '&', .operator '&', .value "sha256sum".toList,
      .expanded "\"$tmp\"".toList, .operator '&', .operator '&', .value "sudo".toList]
    ++ joinAssignments tokenValue masterUrl user
    ++ [.value "bash".toList, .expanded "\"$tmp\"".toList]

/-- A line of words before a line. -/
theorem line_assignments (token url user : String) {ts : List Token} {cs : List Char}
    (h : Line ts cs) :
    Line (.word "sudo".toList :: .word (envAssignment "HERMES_JOIN_TOKEN" token)
      :: .word (envAssignment "HERMES_MASTER_URL" url) :: .word (envAssignment "HERMES_USER" user)
      :: .word "bash".toList :: ts)
      ("sudo".toList ++ ' ' :: (envAssignment "HERMES_JOIN_TOKEN" token
        ++ ' ' :: (envAssignment "HERMES_MASTER_URL" url ++ ' ' :: (envAssignment "HERMES_USER" user
        ++ ' ' :: ("bash".toList ++ ' ' :: cs))))) := by
  have hassign : ∀ name value, name.toList.all isInert = true →
      Written (envAssignment name value) := fun _ value hname =>
    (stands_assignment hname value).toWritten
  refine line_word (stands_word "sudo" (by decide)).toWritten (by decide) ?_
  refine line_word (hassign _ token (by decide)) (envAssignment_ne_nil _ _) ?_
  refine line_word (hassign _ url (by decide)) (envAssignment_ne_nil _ _) ?_
  refine line_word (hassign _ user (by decide)) (envAssignment_ne_nil _ _) ?_
  exact line_word (stands_word "bash" (by decide)).toWritten (by decide) h

theorem item_assignment {name : String} (h : name.toList.all isInert = true) (value : String) :
    (Token.word (envAssignment name value)).item = .value (name.toList ++ '=' :: value.toList) :=
  (stands_assignment h value).item

theorem item_word {w : String} (h : w.toList.all isInert = true) :
    (Token.word w.toList).item = .value w.toList :=
  (stands_word w h).item

theorem item_script (url : String) :
    (Token.word ((shellQuote url).toList ++ "/scripts/join.sh".toList)).item
      = .value (url.toList ++ "/scripts/join.sh".toList) :=
  (stands_script url).item

/-- The join command that runs at once. -/
theorem items_piped (token url user : String) :
    items (renderJoinCommand token url user false).toList = some (pipedJoin token url user) := by
  have hbreaks : Breaks [')'] := by
    intro c hc
    obtain rfl := Option.some.inj hc
    exact .inr (.inr rfl)
  have hscript := stands_script (stripSlashes url)
  -- The line, from its end to its beginning.
  have hclose : Line _ [')'] := .operator rfl .done
  have hcurl := line_word (stands_word "curl" (by decide)).toWritten (by decide)
    (line_word (stands_word "-fsSL" (by decide)).toWritten (by decide)
      (.word hscript.toWritten (by simp) hbreaks hclose))
  have hredirect : Line _ ('<' :: ' ' :: '<' :: '(' :: _) :=
    .operator rfl (.blank rfl (.operator rfl (.operator rfl hcurl)))
  have hline := items_line (line_assignments token (stripSlashes url) user
    (line_word (stands_word "-s" (by decide)).toWritten (by decide) hredirect))
  have htext : (renderJoinCommand token url user false).toList
      = "sudo".toList ++ ' ' :: (envAssignment "HERMES_JOIN_TOKEN" token
        ++ ' ' :: (envAssignment "HERMES_MASTER_URL" (stripSlashes url)
        ++ ' ' :: (envAssignment "HERMES_USER" user ++ ' ' :: ("bash".toList ++ ' ' :: ("-s".toList
        ++ ' ' :: '<' :: ' ' :: '<' :: '(' :: ("curl".toList ++ ' ' :: ("-fsSL".toList
        ++ ' ' :: ((shellQuote (stripSlashes url)).toList ++ "/scripts/join.sh".toList
        ++ [')'])))))))) := by
    simp [renderJoinCommand, envAssignment]
  rw [htext, hline]
  simp only [List.map_cons, List.map_nil, @item_assignment "HERMES_JOIN_TOKEN" (by decide),
    @item_assignment "HERMES_MASTER_URL" (by decide), @item_assignment "HERMES_USER" (by decide),
    item_script, @item_word "sudo" (by decide), @item_word "bash" (by decide),
    @item_word "-s" (by decide), @item_word "curl" (by decide), @item_word "-fsSL" (by decide)]
  simp [pipedJoin, joinAssignments, values, Token.item]

/-- The join command that shows a checksum first, after the temporary file. -/
theorem items_safe (token url user : String) :
    ∃ rest, (renderJoinCommand token url user true).toList = "tmp=$(mktemp) ".toList ++ rest
      ∧ items rest = some (safeJoin token url user) := by
  have hscript := stands_script (stripSlashes url)
  have hand : ∀ {ts : List Token} {cs : List Char}, Line ts cs →
      Line (.operator '&' :: .operator '&' :: ts) ('&' :: '&' :: ' ' :: cs) :=
    fun h => .operator rfl (.operator rfl (.blank rfl h))
  have htmp : "\"$tmp\"".toList ≠ [] := by decide
  -- From the end to the beginning: the script, its checksum, its download.
  have hsudo := hand (line_assignments token (stripSlashes url) user (line_last written_tmp htmp))
  have hsum := hand (line_word (stands_word "sha256sum" (by decide)).toWritten (by decide)
    (line_word written_tmp htmp hsudo))
  have hcurl := hand (line_word (stands_word "curl" (by decide)).toWritten (by decide)
    (line_word (stands_word "-fsSL" (by decide)).toWritten (by decide)
      (line_word hscript.toWritten (by simp)
        (line_word (stands_word "-o" (by decide)).toWritten (by decide)
          (line_word written_tmp htmp hsum)))))
  refine ⟨_, ?_, (items_line hcurl).trans ?_⟩
  · simp [renderJoinCommand, envAssignment]
  · simp only [List.map_cons, List.map_nil, @item_assignment "HERMES_JOIN_TOKEN" (by decide),
      @item_assignment "HERMES_MASTER_URL" (by decide), @item_assignment "HERMES_USER" (by decide),
      item_script, item_tmp, @item_word "sudo" (by decide), @item_word "bash" (by decide),
      @item_word "-o" (by decide), @item_word "curl" (by decide), @item_word "-fsSL" (by decide),
      @item_word "sha256sum" (by decide)]
    simp [safeJoin, joinAssignments, values, Token.item]

/-- **The join command is the command that was meant**, whatever the token,
the URL and the user hold: in both forms the shell reads the same operators
and words, with the values in their places. -/
theorem join_command_items (tokenValue masterUrl user : String) :
    items (renderJoinCommand tokenValue masterUrl user false).toList
        = some (pipedJoin tokenValue masterUrl user)
      ∧ ∃ rest, (renderJoinCommand tokenValue masterUrl user true).toList
          = "tmp=$(mktemp) ".toList ++ rest
        ∧ items rest = some (safeJoin tokenValue masterUrl user) :=
  ⟨items_piped tokenValue masterUrl user, items_safe tokenValue masterUrl user⟩

/-! ## §4. The heartbeat command. -/

/-- The body of the heartbeat that is printed. -/
def heartbeatPayload (node : Node) : Json :=
  .obj [("fingerprint", .str node.fingerprint), ("status", .str "ok"), ("facts", .obj [])]

/-- The line that `heartbeat_command` prints for a node. -/
def renderHeartbeatCommand (masterUrl : String) (node : Node) : String :=
  "curl -fsS -X POST "
    ++ shellQuote (stripSlashes masterUrl ++ "/api/v1/nodes/" ++ node.nodeId ++ "/heartbeat")
    ++ " -H 'Content-Type: application/json' --data " ++ shellQuote (heartbeatPayload node).dumpsVerbatim

/-- `master_url or _default_master_url()`. -/
def controllerUrl (masterUrl : Option String) (configured : String) : String :=
  (masterUrl.filter (· ≠ "")).getD configured

/-- `heartbeat_command`: the lines it prints.  `configured` is the URL that
`_default_master_url` finds.  The lines that the choice of a node prints before
them, the automatic one or the list, are left out. -/
def heartbeatCommand (nodeId : Option String) (choice : Int) (masterUrl : Option String)
    (configured : String) : Py (List String) := do
  let node ← selectManagedNode nodeId choice
  return ["请把下面命令放到节点定时任务里执行：",
    renderHeartbeatCommand (controllerUrl masterUrl configured) node]

/-- The arguments of the command. -/
def heartbeatArguments (masterUrl : String) (node : Node) (body : String) : List String :=
  ["curl", "-fsS", "-X", "POST",
    stripSlashes masterUrl ++ "/api/v1/nodes/" ++ node.nodeId ++ "/heartbeat",
    "-H", "Content-Type: application/json", "--data", body]

/-- A text among the members of a request. -/
def textField (members : Dict) (name : String) (default : Option String) : Option String :=
  match Dict.get? members name with
  | none => default
  | some (.str s) => some s
  | some _ => none

/-- An object among the members of a request. -/
def dictField (members : Dict) (name : String) (default : Option Dict) : Option Dict :=
  match Dict.get? members name with
  | none => default
  | some (.obj kvs) => some kvs
  | some _ => none

/-- The request that a body is validated to. -/
def HeartbeatRequest.ofJson : Json → Option HeartbeatRequest
  | .obj members => do
    let fingerprint ← textField members "fingerprint" none
    let status ← textField members "status" (some "ok")
    let facts ← dictField members "facts" (some [])
    return { fingerprint, status, facts }
  | _ => none

/-- Words that need no quotes are left as they are. -/
theorem shellQuote_word {w : String} (h : w.toList.all isInert = true) (hne : w ≠ "") :
    shellQuote w = w := by
  unfold shellQuote Rollback.shellQuote
  rw [if_neg hne]
  exact if_pos h

theorem shellQuote_header :
    shellQuote "Content-Type: application/json" = "'Content-Type: application/json'" := by
  decide +kernel

/-- The words of the line. -/
theorem heartbeat_words (url body : String) :
    ("curl -fsS -X POST " ++ shellQuote url ++ " -H 'Content-Type: application/json' --data "
      ++ shellQuote body)
      = Text.join " " (["curl", "-fsS", "-X", "POST", url, "-H", "Content-Type: application/json",
        "--data", body].map shellQuote) := by
  rw [← String.toList_inj, toList_join_blank]
  simp only [List.map_cons, List.map_nil]
  rw [shellQuote_header, @shellQuote_word "curl" (by decide) (by decide),
    @shellQuote_word "-fsS" (by decide) (by decide), @shellQuote_word "-X" (by decide) (by decide),
    @shellQuote_word "POST" (by decide) (by decide), @shellQuote_word "-H" (by decide) (by decide),
    @shellQuote_word "--data" (by decide) (by decide)]
  generalize shellQuote url = a
  generalize shellQuote body = b
  simp [List.intercalate, List.intersperse]

/-- The line is read as its arguments. -/
theorem items_heartbeat (masterUrl : String) (node : Node) :
    items (renderHeartbeatCommand masterUrl node).toList
      = some (values (heartbeatArguments masterUrl node (heartbeatPayload node).dumpsVerbatim)) := by
  unfold renderHeartbeatCommand heartbeatArguments
  rw [heartbeat_words]
  exact items_join_quoted _

/-- The body is validated to a heartbeat of the node. -/
theorem heartbeatPayload_read (floatOf : List Char → PyFloat) (node : Node) :
    ∃ v, JsonText.read (heartbeatPayload node).dumpsVerbatim = .ok v
      ∧ (JsonText.toJson? floatOf v).bind HeartbeatRequest.ofJson
        = some { fingerprint := node.fingerprint } := by
  have hwritable : Json.Writable floatOf (heartbeatPayload node) := by
    refine ⟨?_, trivial, trivial, ⟨List.nodup_nil, trivial⟩, trivial⟩
    show ["fingerprint", "status", "facts"].Nodup
    decide
  obtain ⟨v, hread, hvalue⟩ := Json.read_dumpsVerbatim hwritable
  refine ⟨v, hread, ?_⟩
  rw [hvalue]
  rfl

/-- A heartbeat of a managed node that knows its fingerprint. -/
theorem heartbeat_run (env : Env) (w : World) {nodeId : String} {row : Node}
    (hrow : w.store.nodes.find? nodeId = some row) (hmanaged : row.status = .managed) :
    (NodeRequest.heartbeat nodeId (some { fingerprint := row.fingerprint })).program.run
        (exec env) w
      = (.ok (.heartbeat nodeId "ok" workerProtocolVersion true),
        w.after 1 (w.store.addAudit
          { eventType := "node", subjectType := "node", subjectId := nodeId,
            action := "heartbeat", outcome := "ok",
            details := [("status", .str "ok"), ("facts", .obj []),
              ("worker_compatible", .bool true)],
            createdAt := w.reading env 0 })) := by
  have hid : row.nodeId = nodeId := Table.key_of_find? hrow
  show (Hmn.heartbeat nodeId _).run (exec env) w = _
  unfold Hmn.heartbeat requireManaged
  rw [bind_assoc, run_call_bind]
  simp only [exec, hrow]
  rw [if_neg (by rw [hmanaged]; decide), if_neg (not_not.mpr hmanaged), if_neg (not_not.mpr rfl)]
  show (Py.call _ >>= fun _ => _).run (exec env) w = _
  rw [run_call_bind, hid]
  rfl

/-- What a command line is good for: it is a heartbeat of the node that the
API takes as long as the node is managed and keeps its fingerprint. -/
structure Beats (masterUrl : String) (node : Node) (line : String) : Prop where
  /-- The shell calls `curl` with a body for the node's address. -/
  posts : ∃ body, items line.toList = some (values (heartbeatArguments masterUrl node body))
    ∧ ∀ floatOf, ∃ v, JsonText.read body = .ok v
      ∧ (JsonText.toJson? floatOf v).bind HeartbeatRequest.ofJson
        = some { fingerprint := node.fingerprint }
  /-- The endpoint takes it and records it. -/
  taken : ∀ (env : Env) (w : World) (row : Node), w.store.nodes.find? node.nodeId = some row →
    row.status = .managed → row.fingerprint = node.fingerprint →
    ∃ event : AuditEvent, event.subjectId = node.nodeId ∧ event.action = "heartbeat"
      ∧ event.outcome = "ok"
      ∧ (NodeRequest.heartbeat node.nodeId (some { fingerprint := node.fingerprint })).program.run
          (exec env) w
        = (.ok (.heartbeat node.nodeId "ok" workerProtocolVersion true),
          w.after 1 (w.store.addAudit event))

/-- The managed nodes, as the list offers them. -/
def managedNodes (s : Store) : List Node :=
  (s.nodes.rows.insertionSort fun a b => a.hostname ≤ b.hostname).filter fun node =>
    node.status = .managed

/-- The node that is asked for: the one with the identifier, or the managed
node that is chosen when none is given. -/
def AskedFor (s : Store) (nodeId : Option String) (choice : Int) (node : Node) : Prop :=
  match nodeId with
  | some id => s.nodes.find? id = some node
  | none => node.status = .managed ∧ selectFrom (managedNodes s) choice = some node

/-- The node that is selected is the one asked for, and nothing is written. -/
theorem selectManagedNode_run {env : Env} {w w' : World} {nodeId : Option String} {choice : Int}
    {node : Node} (h : (selectManagedNode nodeId choice).run (exec env) w = (.ok node, w')) :
    w' = w ∧ node ∈ w.store.nodes.rows ∧ AskedFor w.store nodeId choice node := by
  unfold selectManagedNode at h
  cases nodeId with
  | some id =>
    rw [run_call_bind] at h
    cases hrow : w.store.nodes.find? id with
    | none =>
      simp only [exec, hrow] at h
      cases h
    | some row =>
      simp only [exec, hrow] at h
      cases h
      exact ⟨rfl, Table.mem_of_find? hrow, hrow⟩
  -- Without an identifier the operator chooses among the managed nodes, in the order of their
  -- names.
  | none =>
    rw [run_call_bind] at h
    simp only [exec] at h
    have hrows : (w.store.nodes.rows.insertionSort fun a b => a.hostname ≤ b.hostname).filter
        (fun node : Node => decide (node.status = .managed)) = managedNodes w.store := rfl
    rw [hrows] at h
    cases hselected : selectFrom (managedNodes w.store) choice with
    | none =>
      rw [hselected] at h
      cases h
    | some row =>
      rw [hselected] at h
      cases h
      obtain ⟨hrow, hmanaged⟩ := List.mem_filter.mp (mem_of_selectFrom hselected)
      exact ⟨rfl, (List.mem_insertionSort _).mp hrow, of_decide_eq_true hmanaged, hselected⟩

theorem beats_render (masterUrl : String) (node : Node) :
    Beats masterUrl node (renderHeartbeatCommand masterUrl node) where
  posts := ⟨_, items_heartbeat masterUrl node, fun floatOf => heartbeatPayload_read floatOf node⟩
  taken env w row hrow hmanaged hfingerprint := by
    have hrun := heartbeat_run env w hrow hmanaged
    rw [hfingerprint] at hrun
    refine ⟨_, ?_, ?_, ?_, hrun⟩
    · rfl
    · rfl
    · rfl

/-- **The heartbeat that is printed is one the API takes**: whatever the
controller's address, the identifier of the node that is asked for and its
fingerprint hold, the shell posts the body that is meant, and as long as the
node is managed with this fingerprint the endpoint records it as a heartbeat
that is well. -/
theorem heartbeat_command_beats {env : Env} {w w' : World} {nodeId : Option String} {choice : Int}
    {masterUrl : Option String} {configured : String} {lines : List String}
    (h : (heartbeatCommand nodeId choice masterUrl configured).run (exec env) w = (.ok lines, w')) :
    w' = w ∧ ∃ node ∈ w.store.nodes.rows, AskedFor w.store nodeId choice node
      ∧ ∃ line, lines = ["请把下面命令放到节点定时任务里执行：", line]
        ∧ Beats (controllerUrl masterUrl configured) node line := by
  unfold heartbeatCommand at h
  rw [Prog.run_bind] at h
  cases hselect : (selectManagedNode nodeId choice).run (exec env) w with
  | mk result w₁ =>
    rw [hselect] at h
    cases result with
    | error e => cases h
    | ok node =>
      obtain ⟨rfl, hnode, hasked⟩ := selectManagedNode_run hselect
      cases h
      exact ⟨rfl, node, hnode, hasked, _, rfl, beats_render _ node⟩

/-- A node whose fingerprint holds a quote and a command. -/
def quotedNode : Node where
  nodeId := "node_1"
  hostname := "edge"
  fingerprint := "it's; rm -rf $HOME"
  addresses := []
  labels := []
  status := .managed
  trustLevel := "edge"

/-- The world of that node. -/
def quotedWorld : World where
  store := { Store.empty with nodes := .single quotedNode }
  files _ := .missing

theorem quoted_heartbeat_beats :
    ∃ node ∈ quotedWorld.store.nodes.rows, AskedFor quotedWorld.store none 1 node ∧ ∃ line,
      ["请把下面命令放到节点定时任务里执行：", renderHeartbeatCommand "https://hub.example/" quotedNode]
          = ["请把下面命令放到节点定时任务里执行：", line]
        ∧ Beats (controllerUrl (some "https://hub.example/") "") node line := by
  have hrun : (heartbeatCommand none 1 (some "https://hub.example/") "").run (exec .quiet) quotedWorld
      = (.ok ["请把下面命令放到节点定时任务里执行：",
        renderHeartbeatCommand "https://hub.example/" quotedNode], quotedWorld) := rfl
  exact (heartbeat_command_beats hrun).2

end Hmn
