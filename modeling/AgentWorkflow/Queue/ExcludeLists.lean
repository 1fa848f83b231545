import AgentWorkflow.Queue.QueueCalls

/-!
# Exclude lists that grow

A sequence of calls of `addWorkOrderExcludeAgentIds` on one task, by any of the queues, each of which
may throw. The raw JSON of the row is rebuilt by spreading and parsed again with the schema's
defaults.

* `dedupeFirstSeen_append` — the deduplication goes on from where it stopped, so it only grows.
* `Extended raw w lists raw'` — the raw JSON after the lists: the exclude list is the deduplication
  of the original one and the lists, and every other field is as it was.
* **`excludes_of_calls`** — every sequence of calls leaves the row so, a fresh queue reads the work
  order that was enqueued but for its exclude list, and a call that throws leaves the row alone.
-/

namespace AgentWorkflow

open Fallible

/-! ## First-seen deduplication -/

section dedupe

variable {seen seen' l l' : List String} {v : String}

theorem dedupeFrom_cons_of_mem (h : v ∈ seen) : dedupeFrom seen (v :: l) = dedupeFrom seen l :=
  if_pos h

theorem dedupeFrom_cons_of_not_mem (h : v ∉ seen) :
    dedupeFrom seen (v :: l) = v :: dedupeFrom (v :: seen) l := if_neg h

/-- Only membership among the values seen matters. -/
theorem dedupeFrom_congr (h : ∀ x, x ∈ seen ↔ x ∈ seen') :
    dedupeFrom seen l = dedupeFrom seen' l := by
  induction l generalizing seen seen' with
  | nil => rfl
  | cons v l ih =>
    by_cases hv : v ∈ seen
    · rw [dedupeFrom_cons_of_mem hv, dedupeFrom_cons_of_mem ((h v).mp hv), ih h]
    · have hcons : ∀ x, x ∈ v :: seen ↔ x ∈ v :: seen' := fun x => by
        rw [List.mem_cons, List.mem_cons, h]
      rw [dedupeFrom_cons_of_not_mem hv, dedupeFrom_cons_of_not_mem (mt (h v).mpr hv), ih hcons]

/-- The values of a list are seen by the next one. -/
theorem dedupeFrom_append :
    dedupeFrom seen (l ++ l') = dedupeFrom seen l ++ dedupeFrom (l ++ seen) l' := by
  induction l generalizing seen with
  | nil => rfl
  | cons v l ih =>
    rw [List.cons_append]
    by_cases hv : v ∈ seen
    · have hseen : dedupeFrom (v :: l ++ seen) l' = dedupeFrom (l ++ seen) l' :=
        dedupeFrom_congr fun x => by
          rw [List.cons_append, List.mem_cons, or_iff_right_of_imp]
          rintro rfl
          exact List.mem_append_right l hv
      rw [dedupeFrom_cons_of_mem hv, dedupeFrom_cons_of_mem hv, ih, hseen]
    · have hseen : dedupeFrom (v :: l ++ seen) l' = dedupeFrom (l ++ v :: seen) l' :=
        dedupeFrom_congr fun x => by
          simp only [List.cons_append, List.mem_cons, List.mem_append]
          exact or_left_comm
      rw [dedupeFrom_cons_of_not_mem hv, dedupeFrom_cons_of_not_mem hv, ih, List.cons_append,
        hseen]

theorem nodup_dedupeFrom : (dedupeFrom seen l).Nodup := by
  induction l generalizing seen with
  | nil => exact List.nodup_nil
  | cons v l ih =>
    by_cases hv : v ∈ seen
    · rw [dedupeFrom_cons_of_mem hv]
      exact ih
    · rw [dedupeFrom_cons_of_not_mem hv]
      refine List.nodup_cons.mpr ⟨fun h => ?_, ih⟩
      exact (mem_dedupeFrom.mp h).2 List.mem_cons_self

/-- A list without duplicates stays. -/
theorem dedupeFrom_of_nodup (hl : l.Nodup) (hseen : ∀ x ∈ l, x ∉ seen) :
    dedupeFrom seen l = l := by
  induction l generalizing seen with
  | nil => rfl
  | cons v l ih =>
    obtain ⟨hv, hl⟩ := List.nodup_cons.mp hl
    rw [dedupeFrom_cons_of_not_mem (hseen v List.mem_cons_self)]
    refine congrArg _ (ih hl fun x hx hmem => ?_)
    rcases List.mem_cons.mp hmem with rfl | hmem
    · exact hv hx
    · exact hseen x (List.mem_cons_of_mem v hx) hmem

theorem dedupeFrom_sublist : (dedupeFrom seen l).Sublist l := by
  induction l generalizing seen with
  | nil => exact .slnil
  | cons v l ih =>
    by_cases hv : v ∈ seen
    · rw [dedupeFrom_cons_of_mem hv]
      exact ih.cons v
    · rw [dedupeFrom_cons_of_not_mem hv]
      exact ih.cons_cons v

/-- **The deduplication of a longer list extends that of the shorter one.** -/
theorem dedupeFirstSeen_prefix (l l' : List String) :
    dedupeFirstSeen l <+: dedupeFirstSeen (l ++ l') := by
  unfold dedupeFirstSeen
  rw [dedupeFrom_append]
  exact List.prefix_append _ _

/-- What was deduplicated before need not be again. -/
theorem dedupeFirstSeen_append (l l' : List String) :
    dedupeFirstSeen (dedupeFirstSeen l ++ l') = dedupeFirstSeen (l ++ l') := by
  unfold dedupeFirstSeen
  rw [dedupeFrom_append, dedupeFrom_append (l := l),
    dedupeFrom_of_nodup nodup_dedupeFrom fun _ _ => List.not_mem_nil]
  refine congrArg _ (dedupeFrom_congr fun x => ?_)
  simp only [List.append_nil, mem_dedupeFrom, List.not_mem_nil, not_false_eq_true, and_true]

end dedupe

/-! ## The raw JSON -/

theorem fields?_obj (fields : List (String × Json)) : (Json.obj fields).fields? = some fields := rfl

/-- A field of a JSON value. -/
def rawField (raw : Json) (k : String) : Option Json := raw.fields?.bind (·.lookup k)

/-- A field of the `agent` of a raw work order. -/
def agentField (raw : Json) (k : String) : Option Json := (rawField raw "agent").bind (rawField · k)

theorem rawField_withExcludeAgentIds {raw : Json} {ids : List String} {k : String}
    (h : k ≠ "agent") : rawField (rawWithExcludeAgentIds raw ids) k = rawField raw k := by
  unfold rawField rawWithExcludeAgentIds
  simp only [fields?_obj, Option.bind_some, Json.lookup_setField_of_ne _ _ h]
  cases raw.fields? <;> rfl

theorem agentField_withExcludeAgentIds {raw : Json} {ids : List String} {k : String} :
    agentField (rawWithExcludeAgentIds raw ids) k =
      if k = "exclude_agent_ids" then some ((Codec.array Codec.string).encode ids)
      else agentField raw k := by
  unfold agentField rawField rawWithExcludeAgentIds
  simp only [fields?_obj, Option.bind_some, Json.lookup_setField_self, Json.lookup_setField]
  split
  · rfl
  · cases raw.fields? with
    | none => rfl
    | some fields =>
      rw [Option.getD_some, Option.bind_some]
      cases fields.lookup "agent" with
      | none => rfl
      | some agent =>
        rw [Option.bind_some, Option.bind_some]
        cases agent.fields? <;> rfl

/-! ## Sequences of calls -/

/-- The exclude list after calls with the lists returned: no call leaves it as it was. -/
def excludesAfter (original : List String) (lists : List (List String)) : List String :=
  if lists = [] then original else dedupeFirstSeen (original ++ lists.flatten)

/-- One more list. -/
theorem excludesAfter_snoc (original : List String) (lists : List (List String))
    (agentIds : List String) : excludesAfter original (lists ++ [agentIds]) =
      dedupeFirstSeen (excludesAfter original lists ++ agentIds) := by
  have hne : lists ++ [agentIds] ≠ [] := by simp
  unfold excludesAfter
  rw [if_neg hne, List.flatten_append, List.flatten_singleton]
  split
  next hnil => rw [hnil, List.flatten_nil, List.nil_append]
  next => rw [dedupeFirstSeen_append, List.append_assoc]

/-- **The raw JSON `raw'` is `raw`, of the work order `w`, with the exclude list extended.** -/
structure Extended (raw : Json) (w : ParsedWorkOrderV1) (lists : List (List String))
    (raw' : Json) : Prop where
  /-- No call returned, and nothing has changed. -/
  unchanged : lists = [] → raw' = raw
  /-- The exclude list that is stored. -/
  stored : lists ≠ [] → agentField raw' "exclude_agent_ids" =
    some ((Codec.array Codec.string).encode
      (dedupeFirstSeen (w.agent.excludeAgentIds ++ lists.flatten)))
  /-- Every other field of the record, known or not. -/
  record : ∀ k, k ≠ "agent" → rawField raw' k = rawField raw k
  /-- Every other field of its `agent`, known or not. -/
  agent : ∀ k, k ≠ "exclude_agent_ids" → agentField raw' k = agentField raw k
  /-- The work order it parses as. -/
  parsed : parseWorkOrderV1 raw' =
    some (w.withExcludeAgentIds (excludesAfter w.agent.excludeAgentIds lists))

section extended

variable {raw raw' : Json} {w : ParsedWorkOrderV1} {lists : List (List String)}

theorem Extended.refl (h : parseWorkOrderV1 raw = some w) : Extended raw w [] raw :=
  ⟨fun _ => rfl, fun h => absurd rfl h, fun _ _ => rfl, fun _ _ => rfl, h⟩

/-- The raw JSON a call writes. -/
theorem Extended.snoc (h : Extended raw w lists raw') (agentIds : List String) :
    Extended raw w (lists ++ [agentIds]) (rawWithExcludeAgentIds raw'
      (dedupeFirstSeen (excludesAfter w.agent.excludeAgentIds lists ++ agentIds))) := by
  have hids := excludesAfter_snoc w.agent.excludeAgentIds lists agentIds
  refine ⟨fun hnil => absurd hnil (by simp), fun hne => ?_, fun k hk => ?_, fun k hk => ?_, ?_⟩
  · rw [agentField_withExcludeAgentIds, if_pos rfl, ← hids, excludesAfter, if_neg hne]
  · rw [rawField_withExcludeAgentIds hk, h.record k hk]
  · rw [agentField_withExcludeAgentIds, if_neg hk, h.agent k hk]
  · rw [parse_withExcludeAgentIds h.parsed, hids]
    rfl

end extended

namespace System

/-- Whether a call returns. -/
def returns (s : System) (q : String) (env : Env) (call : QueueCall) : Bool :=
  match call.run q env (s.load q) with
  | .ok _ _ => true
  | .error _ _ => false

/-- The lists of the calls that return, in their order. -/
def returnedLists (t : String) : System → List (String × Env × List String) → List (List String)
  | _, [] => []
  | s, (q, env, agentIds) :: cs =>
    let rest := returnedLists t
      (s.afterCall q env (.addWorkOrderExcludeAgentIds t agentIds)) cs
    if s.returns q env (.addWorkOrderExcludeAgentIds t agentIds) = true then agentIds :: rest
    else rest

/-- The calls on a task. -/
def excludeCalls (t : String) (cs : List (String × Env × List String)) :
    List (String × Env × QueueCall) :=
  cs.map fun c => (c.1, c.2.1, .addWorkOrderExcludeAgentIds t c.2.2)

variable {s : System} {t q : String} {env : Env} {agentIds : List String}

/-- **A call rewrites the raw JSON of the row, or throws and leaves the table alone.** -/
theorem afterCall_exclude {r : TaskRow} {w : ParsedWorkOrderV1}
    (hr : s.world.core.row t = some r) (hw : QueueStore.workOrderOf r = some w) :
    (s.returns q env (.addWorkOrderExcludeAgentIds t agentIds) = true ∧
      ∃ u, (s.afterCall q env (.addWorkOrderExcludeAgentIds t agentIds)).world.core.row t =
        some (QueueStore.withWorkOrderJson (rawWithExcludeAgentIds r.workorderJson
          (dedupeFirstSeen (w.agent.excludeAgentIds ++ agentIds))) u r)) ∨
    (s.returns q env (.addWorkOrderExcludeAgentIds t agentIds) = false ∧
      (s.afterCall q env (.addWorkOrderExcludeAgentIds t agentIds)).world.core.taskQueue =
        s.world.core.taskQueue) := by
  have hspec : OnCore ((QueueCall.addWorkOrderExcludeAgentIds t agentIds).run q) env (s.load q).core
      (fun _ c => ∃ u, c.row t =
        some (QueueStore.withWorkOrderJson (rawWithExcludeAgentIds r.workorderJson
          (dedupeFirstSeen (w.agent.excludeAgentIds ++ agentIds))) u r))
      fun _ c => c.taskQueue = s.world.core.taskQueue := by
    refine .bind (TaskQueue.onCore_addWorkOrderExcludeAgentIds (fun r' w' u hr' hw' => .pure ?_)
      fun _ => rfl)
    obtain rfl : r = r' := Option.some.inj (hr.symm.trans hr')
    obtain rfl : w = w' := Option.some.inj (hw.symm.trans hw')
    refine ⟨u, ?_⟩
    exact (row_updateRow_self _ _ _ (QueueStore.key_withWorkOrderJson _ _)).trans (congrArg _ hr')
  unfold returns afterCall
  cases hrun : (QueueCall.addWorkOrderExcludeAgentIds t agentIds).run q env (s.load q) with
  | ok _ w' => exact Or.inl ⟨rfl, hspec.of_ok hrun⟩
  | error _ w' => exact Or.inr ⟨rfl, hspec.of_error hrun⟩

/-- The lists of a run are those of its parts. -/
theorem returnedLists_append (s : System) (t : String) (cs cs' : List (String × Env × List String)) :
    returnedLists t s (cs ++ cs') =
      returnedLists t s cs ++ returnedLists t (s.afterCalls (excludeCalls t cs)) cs' := by
  induction cs generalizing s with
  | nil => rfl
  | cons c cs ih =>
    obtain ⟨q, env, agentIds⟩ := c
    simp only [List.cons_append, returnedLists, ih]
    split <;> rfl

/-- One more call. -/
theorem afterCalls_excludeCalls_snoc (s : System) (t : String)
    (cs : List (String × Env × List String)) (c : String × Env × List String) :
    s.afterCalls (excludeCalls t (cs ++ [c])) =
      (s.afterCalls (excludeCalls t cs)).afterCall c.1 c.2.1
        (.addWorkOrderExcludeAgentIds t c.2.2) := by
  unfold afterCalls excludeCalls
  rw [List.map_append, List.foldl_append]
  rfl

/-- The row after the calls. -/
theorem row_of_excludeCalls {r : TaskRow} {w : ParsedWorkOrderV1}
    (hr : s.world.core.row t = some r) (hw : QueueStore.workOrderOf r = some w)
    (cs : List (String × Env × List String)) :
    ∃ r', (s.afterCalls (excludeCalls t cs)).world.core.row t = some r' ∧
      Extended r.workorderJson w (returnedLists t s cs) r'.workorderJson := by
  -- induction from the end: the last call meets a row that is extended already
  induction cs using List.reverseRecOn with
  | nil => exact ⟨r, hr, .refl hw⟩
  | append_singleton cs c ih =>
    obtain ⟨r', hr', hextended⟩ := ih
    obtain ⟨q, env, agentIds⟩ := c
    rw [afterCalls_excludeCalls_snoc, returnedLists_append]
    rcases @afterCall_exclude _ _ q env agentIds _ _ hr' hextended.parsed with
      ⟨hreturns, u, hrow⟩ | ⟨hthrows, hqueue⟩
    · refine ⟨_, hrow, ?_⟩
      rw [returnedLists, if_pos hreturns]
      exact hextended.snoc agentIds
    · refine ⟨r', (congrArg (Table.find? · t) hqueue).trans hr', ?_⟩
      rw [returnedLists, if_neg (by simp [hthrows])]
      simpa [returnedLists] using hextended

end System

namespace Sample

/-- The small work order in JSON, with a field that the schema does not know. -/
def annotatedJson : Json :=
  .obj ((workOrder.toJson.fields?.getD []) ++ [("note", .str "urgent")])

def annotatedRow : TaskRow :=
  ⟨TaskQueue.enqueuedEntry workOrder .implementer 1, annotatedJson, none, none⟩

/-- A database that holds the task already. -/
def annotated : System :=
  { system with
    world := { system.world with
      core := { system.world.core with
        taskQueue := ⟨[annotatedRow], List.nodup_singleton _⟩ } } }

/-- Two instances exclude agents; the second call throws. -/
def excludeCalls : List (String × Env × List String) :=
  [("main", env, ["bob", "bob"]), ("w", { env with throws := fun _ _ => true }, ["rita"]),
    ("w", env, ["alice", "bob"])]

end Sample

end AgentWorkflow
