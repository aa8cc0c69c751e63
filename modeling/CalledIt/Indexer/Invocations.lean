import CalledIt.Indexer.FinalizedIndexer

/-!
# CalledIt.Indexer.Invocations

The log of a transaction, as its invocations write it.

Programs invoke programs, to any depth, and each writes its events into the one log.
`eventLogs` finds every event of the program, whoever invoked it, under the instruction of
the transaction that it came of (`eventLogs_printNodes`).  So two events of one instruction
have one index (`nodup_located_iff`).
-/

namespace CalledIt.Indexer

/-- What a program does, as far as the log tells. -/
inductive LogNode
  | data (event : Option EscrowProgramEvent)
  | note
  | invoke (program : String) (body : List LogNode)

mutual

def printNode (depth : Nat) : LogNode → List LogLine
  | .data event => [.data event]
  | .note => [.other]
  | .invoke program body =>
      .invoke program depth :: (printNodes (depth + 1) body ++ [.completion program])

def printNodes (depth : Nat) : List LogNode → List LogLine
  | [] => []
  | node :: nodes => printNode depth node ++ printNodes depth nodes

end

section Events

variable (programId : String)

mutual

/-- The events of the program, while some program runs. -/
def nodeEvents (running : String) : LogNode → List EscrowProgramEvent
  | .data event => if running = programId then event.toList else []
  | .note => []
  | .invoke program body => nodesEvents program body

def nodesEvents (running : String) : List LogNode → List EscrowProgramEvent
  | [] => []
  | node :: nodes => nodeEvents running node ++ nodesEvents running nodes

end

/-- The events of a transaction: each has the index of its instruction. -/
def located (index : Int) : List LogNode → List LocatedEvent
  | [] => []
  | .invoke program body :: nodes =>
      (nodesEvents programId program body).map (⟨index + 1, ·⟩) ++ located (index + 1) nodes
  | _ :: nodes => located index nodes

/-- No instruction of the transaction leads to two events. -/
def OneEach (nodes : List LogNode) : Prop :=
  ∀ program body, .invoke program body ∈ nodes → (nodesEvents programId program body).length ≤ 1

end Events

/-! ## the reading -/

variable (programId : String)

theorem setLength_self {stack : List (Option String)} : setLength stack stack.length = stack := by
  simp [setLength]

theorem readLine_invoke (stack : List (Option String)) (top : Int) (events : List LocatedEvent)
    (program : String) :
    readLine programId ⟨stack, top, events⟩ (.invoke program (stack.length + 1)) =
      some ⟨stack ++ [some program], top + if stack = [] then 1 else 0, events⟩ := by
  simp [readLine, setLength_self]

theorem readLine_completion (stack : List (Option String)) (top : Int)
    (events : List LocatedEvent) (program : String) :
    readLine programId ⟨stack ++ [some program], top, events⟩ (.completion program) =
      some ⟨stack, top, events⟩ := by
  simp [readLine]

mutual

/-- What a program writes is read back, and the stack is as before. -/
theorem readNode (stack : List (Option String)) (running : String) (top : Int)
    (events : List LocatedEvent) (node : LogNode) :
    (printNode (stack.length + 2) node).foldlM (readLine programId)
        ⟨stack ++ [some running], top, events⟩ =
      some ⟨stack ++ [some running], top,
        events ++ (nodeEvents programId running node).map (⟨top, ·⟩)⟩ := by
  match node with
  | .data event =>
      by_cases hrunning : running = programId
      · simp [printNode, nodeEvents, readLine, hrunning]
      · simp [printNode, nodeEvents, readLine, hrunning]
  | .note => simp [printNode, nodeEvents, readLine]
  | .invoke program body =>
      have hopen := readLine_invoke programId (stack ++ [some running]) top events
        program
      have hbody := readNodes (stack ++ [some running]) program top events body
      have hclose := readLine_completion programId (stack ++ [some running]) top
        (events ++ (nodesEvents programId program body).map (⟨top, ·⟩)) program
      rw [List.length_append, List.length_singleton] at hopen hbody
      rw [if_neg (by simp), Int.add_zero] at hopen
      simp only [printNode, nodeEvents, List.foldlM_cons, List.foldlM_append, List.foldlM_nil,
        hopen, hbody, hclose, Option.bind_eq_bind, Option.bind_some, Option.pure_def]

theorem readNodes (stack : List (Option String)) (running : String) (top : Int)
    (events : List LocatedEvent) (nodes : List LogNode) :
    (printNodes (stack.length + 2) nodes).foldlM (readLine programId)
        ⟨stack ++ [some running], top, events⟩ =
      some ⟨stack ++ [some running], top,
        events ++ (nodesEvents programId running nodes).map (⟨top, ·⟩)⟩ := by
  match nodes with
  | [] => simp [printNodes, nodesEvents]
  | node :: nodes =>
      rw [printNodes, List.foldlM_append, readNode, Option.bind_eq_bind, Option.bind_some,
        readNodes, nodesEvents, List.map_append, List.append_assoc]

end

/-- The instructions of a transaction. -/
theorem readInstructions (nodes : List LogNode) (top : Int) (events : List LocatedEvent) :
    ∃ final, (printNodes 1 nodes).foldlM (readLine programId) ⟨[], top, events⟩ =
      some ⟨[], final, events ++ located programId top nodes⟩ := by
  induction nodes generalizing top events with
  | nil => exact ⟨top, by simp [printNodes, located]⟩
  | cons node nodes ih =>
      cases node with
      | data event =>
          obtain ⟨final, hrest⟩ := ih top events
          exact ⟨final, by simpa [printNodes, printNode, located, readLine] using hrest⟩
      | note =>
          obtain ⟨final, hrest⟩ := ih top events
          exact ⟨final, by simpa [printNodes, printNode, located, readLine] using hrest⟩
      | invoke program body =>
          have hopen := readLine_invoke programId [] top events program
          have hbody := readNodes programId [] program (top + 1) events body
          have hclose := readLine_completion programId [] (top + 1)
            (events ++ (nodesEvents programId program body).map (⟨top + 1, ·⟩)) program
          obtain ⟨final, hrest⟩ := ih (top + 1)
            (events ++ (nodesEvents programId program body).map (⟨top + 1, ·⟩))
          refine ⟨final, ?_⟩
          rw [if_pos rfl] at hopen
          simp only [List.length_nil, Nat.zero_add, List.nil_append] at hopen hbody hclose
          simp only [printNodes, printNode, located, List.foldlM_cons, List.foldlM_append,
            List.foldlM_nil, hopen, hbody, hclose, hrest, Option.bind_eq_bind, Option.bind_some,
            Option.pure_def, List.append_assoc]

/-- Every event of the program is found, under the index of its instruction. -/
theorem eventLogs_printNodes (nodes : List LogNode) :
    eventLogs programId (printNodes 1 nodes) = some (located programId (-1) nodes) := by
  obtain ⟨final, hread⟩ := readInstructions programId nodes (-1) []
  rw [eventLogs, hread]
  rfl

/-! ## indexes -/

variable {programId}

theorem le_of_mem_located {nodes : List LogNode} {index : Int} {event : LocatedEvent}
    (h : event ∈ located programId index nodes) : index < event.instructionIndex := by
  induction nodes generalizing index with
  | nil => simp [located] at h
  | cons node nodes ih =>
      cases node with
      | data | note => exact ih h
      | invoke program body =>
          rcases List.mem_append.mp h with h | h
          · obtain ⟨_, -, rfl⟩ := List.mem_map.mp h
            exact Int.lt_succ index
          · have := ih h
            omega

/-- The indexes are distinct where no instruction leads to two events. -/
theorem nodup_located_iff {nodes : List LogNode} {index : Int} :
    ((located programId index nodes).map (·.instructionIndex)).Nodup ↔ OneEach programId nodes := by
  induction nodes generalizing index with
  | nil => simp [located, OneEach]
  | cons node nodes ih =>
      cases node with
      | data | note => simpa [located, OneEach] using ih
      | invoke program body =>
          have hcons : OneEach programId (.invoke program body :: nodes) ↔
              (nodesEvents programId program body).length ≤ 1 ∧ OneEach programId nodes := by
            simp only [OneEach, List.mem_cons, LogNode.invoke.injEq]
            refine ⟨fun h => ⟨h program body (.inl ⟨rfl, rfl⟩), fun p b hmem => h p b (.inr hmem)⟩,
              fun h p b hmem => ?_⟩
            rcases hmem with ⟨rfl, rfl⟩ | hmem
            · exact h.1
            · exact h.2 p b hmem
          have hfirst : ((nodesEvents programId program body).map
              (⟨index + 1, ·⟩ : EscrowProgramEvent → LocatedEvent)).map (·.instructionIndex) =
                List.replicate (nodesEvents programId program body).length (index + 1) := by
            rw [List.map_map]
            exact List.map_const'
          rw [hcons, located, List.map_append, hfirst, List.nodup_append, List.nodup_replicate, ih]
          refine and_congr_right fun _ => and_iff_left ?_
          intro i hi j hj hsame
          obtain ⟨event, hevent, rfl⟩ := List.mem_map.mp hj
          have hlater := le_of_mem_located hevent
          rw [(List.mem_replicate.mp hi).2] at hsame
          omega

end CalledIt.Indexer
