import ShellLift.Proofs.Declarations
import ShellLift.Proofs.Spans

/-!
# What a call refers to

The rules change while a script is read, so the kind of a call is the kind that its name has at that
moment. In the finished tree the same is said by places: a call of a declared function stands behind
the end of the declaration. No name is declared twice, and none that has a rule from the start, so
the declaration is the only one with that name.
-/

set_option autoImplicit false

namespace ShellLift

open Step Cursor

/-! ## The functions of a tree -/

/-- Items with the same key are the same when all keys are distinct. -/
theorem eq_of_filterMap_nodup {α β : Type} {key : α → Option β} {items : List α} {first second : α}
    {name : β} (distinct : (items.filterMap key).Nodup) (first_mem : first ∈ items)
    (second_mem : second ∈ items) (first_key : key first = some name)
    (second_key : key second = some name) : first = second := by
  have occurs : ∀ {item : α} {others : List α}, item ∈ others → key item = some name →
      name ∈ others.filterMap key :=
    fun member keyed => List.mem_filterMap.mpr ⟨_, member, keyed⟩
  induction items with
  | nil => cases first_mem
  | cons item others ih =>
      rcases List.mem_cons.mp first_mem with rfl | first_later
      · rcases List.mem_cons.mp second_mem with rfl | second_later
        · rfl
        · rw [List.filterMap_cons_some first_key, List.nodup_cons] at distinct
          exact absurd (occurs second_later second_key) distinct.1
      · rcases List.mem_cons.mp second_mem with rfl | second_later
        · rw [List.filterMap_cons_some second_key, List.nodup_cons] at distinct
          exact absurd (occurs first_later first_key) distinct.1
        · refine ih ?_ first_later second_later
          exact distinct.sublist ((List.sublist_cons_self _ _).filterMap _)

namespace Statement

def functionName? : Statement → Option Text
  | function _ name _ => some name
  | _ => none

theorem functionName?_eq_some {statement : Statement} {name : Text} :
    statement.functionName? = some name ↔ ∃ span body, statement = .function span name body := by
  cases statement with
  | function span other body => simp [functionName?]
  | assignment span kind target value => simp [functionName?]
  | conditional span condition body => simp [functionName?]
  | invocation span other arguments kind => simp [functionName?]

def functionNames (statements : List Statement) : List Text :=
  (nodesAll statements).filterMap functionName?

theorem mem_functionNames {statements : List Statement} {name : Text} :
    name ∈ functionNames statements ↔
      ∃ span body, function span name body ∈ nodesAll statements := by
  unfold functionNames
  rw [List.mem_filterMap]
  constructor
  · rintro ⟨statement, member, named⟩
    obtain ⟨span, body, rfl⟩ := functionName?_eq_some.mp named
    exact ⟨span, body, member⟩
  · rintro ⟨span, body, member⟩
    exact ⟨_, member, rfl⟩

mutual

theorem declarations_perm : ∀ statement : Statement,
    statement.declarations.Perm (statement.nodes.filterMap functionName?)
  | assignment span kind target value => .refl _
  | invocation span name arguments kind => .refl _
  | conditional span condition body => declarationsAll_perm body
  | function span name body => by
      have inside := declarationsAll_perm body
      exact (List.perm_append_singleton name _).trans (inside.cons name)

/-- The order of the declarations and the order of the script have the same names. -/
theorem declarationsAll_perm : ∀ statements : List Statement,
    (declarationsAll statements).Perm (functionNames statements)
  | [] => .refl _
  | statement :: others => by
      unfold functionNames
      rw [declarationsAll, nodesAll, List.filterMap_append]
      exact (declarations_perm statement).append (declarationsAll_perm others)

end

end Statement

/-! ## Where statements stand -/

def Between (start : Location) (nodes : List Statement) (stop : Location) : Prop :=
  ∀ node ∈ nodes, start ≤ node.span.start ∧ node.span.stop ≤ stop

namespace Between

theorem mono {start start' stop stop' : Location} {nodes : List Statement}
    (between : Between start nodes stop) (before : start' ≤ start) (behind : stop ≤ stop') :
    Between start' nodes stop' := by
  intro node member
  obtain ⟨first, last⟩ := between node member
  exact ⟨le_trans before first, le_trans last behind⟩

end Between

namespace Parser

theorem Simple.nodes_eq {rules : RuleTable} {c d : Cursor} {statement : Statement}
    (simple : Simple rules c statement d) : statement.nodes = [statement] := by
  rw [statement.nodes_eq, simple.body_eq, Statement.nodesAll]

/-- What is read from a position on stands between it and the position behind. -/
theorem Parsed.between {place : Option Body} {p q : Parser} {read : List Statement}
    (parsed : Parsed place p read q) (clean : p.cursor.Clean) :
    Between p.cursor.location (Statement.nodesAll read) q.cursor.location := by
  intro node member
  obtain ⟨begins, -, ends⟩ := (parsed.laid clean).within node member
  exact ⟨begins, ends⟩

/-- The rules along a derivation grow by what the statements declare. -/
theorem Parsed.grows {place : Option Body} {p q : Parser} {read : List Statement}
    (parsed : Parsed place p read q) :
    p.rules.Grows (Statement.declarationsAll read) q.rules := by
  have ran := parsed.ran
  cases place with
  | none => exact grows_of_statements ran
  | some body =>
      have run := ran p.cursor.location (p.cursor.size + 1) (Nat.lt_succ_self _)
      have grown := declares_readBody declares_statement? body p.cursor.location
        (p.cursor.size + 1) p
      rw [run] at grown
      exact grown

end Parser

/-! ## Calls -/

namespace Statement

/-- Among the statements there is a declaration of the name that ends before the place. -/
def DeclaredBefore (nodes : List Statement) (name : Text) (place : Location) : Prop :=
  ∃ span body, function span name body ∈ nodes ∧ span.stop ≤ place

/-- Each call has its kind from the rules in front, or from a declaration that ends before it. -/
def CallsFrom (rules : RuleTable) (nodes : List Statement) : Prop :=
  ∀ span name arguments kind, invocation span name arguments kind ∈ nodes →
    rules.get? name = some (.invocation kind) ∨
      kind = .declared ∧ DeclaredBefore nodes name span.start

theorem DeclaredBefore.mono {nodes more : List Statement} {name : Text} {place : Location}
    (before : DeclaredBefore nodes name place) (included : nodes ⊆ more) :
    DeclaredBefore more name place := by
  obtain ⟨span, body, member, ends⟩ := before
  exact ⟨span, body, included member, ends⟩

namespace CallsFrom

theorem cons {rules : RuleTable} {node : Statement} {nodes : List Statement}
    (first : ∀ span name arguments kind, node = .invocation span name arguments kind →
      rules.get? name = some (.invocation kind)) (others : CallsFrom rules nodes) :
    CallsFrom rules (node :: nodes) := by
  intro span name arguments kind member
  rcases List.mem_cons.mp member with same | member
  · exact .inl (first span name arguments kind same.symm)
  · refine (others span name arguments kind member).imp_right ?_
    rintro ⟨declared, before⟩
    exact ⟨declared, before.mono (List.subset_cons_self _ _)⟩

/-- Calls behind statements that declare functions, all of which end at a place before the calls. -/
theorem append {before after : RuleTable} {front back : List Statement} {names : List Text}
    {middle stop : Location} (first : CallsFrom before front) (second : CallsFrom after back)
    (grows : before.Grows names after) (declared : ∀ name ∈ names, DeclaredBefore front name middle)
    (behind : Between middle back stop) : CallsFrom before (front ++ back) := by
  intro span name arguments kind member
  rcases List.mem_append.mp member with member | member
  · refine (first span name arguments kind member).imp_right ?_
    rintro ⟨declared, earlier⟩
    exact ⟨declared, earlier.mono (List.subset_append_left _ _)⟩
  · rcases second span name arguments kind member with known | ⟨declared, earlier⟩
    · rw [grows.get?_eq] at known
      cases old : before.get? name with
      | some rule =>
          rw [old, Option.some_or] at known
          exact .inl known
      | none =>
          rw [old, Option.none_or] at known
          split at known
          · rename_i new
            cases known
            obtain ⟨place, body, function, ends⟩ := declared name new
            refine .inr ⟨rfl, place, body, List.mem_append_left _ function, ?_⟩
            exact le_trans ends (behind _ member).1
          · cases known
    · exact .inr ⟨declared, earlier.mono (List.subset_append_right _ _)⟩

end CallsFrom

/-- The functions of statements end where the statements end. -/
theorem declaredBefore_of_between {start stop : Location} {statements : List Statement}
    {name : Text}
    (between : Between start (nodesAll statements) stop)
    (declared : name ∈ declarationsAll statements) :
    DeclaredBefore (nodesAll statements) name stop := by
  rw [(declarationsAll_perm statements).mem_iff, mem_functionNames] at declared
  obtain ⟨span, body, member⟩ := declared
  exact ⟨span, body, member, (between _ member).2⟩

end Statement

/-- The kind of a call depends on what was read before it. -/
theorem Parser.Parsed.callsFrom {place : Option Body} {p q : Parser} {read : List Statement}
    (parsed : Parsed place p read q) (clean : p.cursor.Clean) :
    Statement.CallsFrom p.rules (Statement.nodesAll read) := by
  induction parsed with
  | finish _ => exact fun _ _ _ _ member => absurd member List.not_mem_nil
  | close _ _ => exact fun _ _ _ _ member => absurd member List.not_mem_nil
  | @simple place p q statement d e others _ simple stop _ ih =>
      have idle := follows_skipIdle p.cursor
      have stopped := (Forward.readTerminator statement.kind).of_ok stop
      have front := idle.trans (simple.follows.trans stopped)
      rw [Statement.nodesAll, simple.nodes_eq, List.singleton_append]
      refine .cons ?_ (ih (front.clean clean))
      rintro span name arguments kind rfl
      cases simple with
      | assignment _ _ run =>
          obtain ⟨-, value, -, same⟩ := Statement.readAssignment_eq_ok.mp run
          cases same
      | invocation known run =>
          obtain ⟨arguments, stop, -, same⟩ := Statement.arguments_of_readInvocation run
          cases same
          exact known
  | @conditional place p inner q condition c e body others _ _ head within stop rest ihBody ih =>
      have opened := (follows_skipIdle p.cursor).trans (Forward.readCondition.of_ok head)
      have stopped := (Forward.readTerminator .conditional).of_ok stop
      have cleanBody : c.Clean := opened.clean clean
      have cleanRest : e.Clean := (within.follows.trans stopped).clean cleanBody
      have inside := within.between cleanBody
      rw [Statement.nodesAll, Statement.nodes]
      refine .append (.cons ?_ (ihBody cleanBody)) (ih cleanRest) within.grows ?_
        (rest.between cleanRest)
      · intro span name arguments kind other
        cases other
      · intro name declared
        have ended := Statement.declaredBefore_of_between
          (inside.mono (le_refl _) stopped.location_le) declared
        exact ended.mono (List.subset_cons_self _ _)
  | @function place p inner q name c e rules body others _ _ head within added stop rest
      ihBody ih =>
      have opened := (follows_skipIdle p.cursor).trans ((Forward.readSignature _ _).of_ok head)
      have stopped := (Forward.readTerminator .function).of_ok stop
      have cleanBody : c.Clean := opened.clean clean
      have cleanRest : e.Clean := (within.follows.trans stopped).clean cleanBody
      have inside := within.between cleanBody
      rw [Statement.nodesAll, Statement.nodes]
      refine .append (.cons ?_ (ihBody cleanBody)) (ih cleanRest)
        (within.grows.trans (.of_register added)) ?_ (rest.between cleanRest)
      · intro span name arguments kind other
        cases other
      · intro other declared
        rcases List.mem_append.mp declared with earlier | last
        · have ended := Statement.declaredBefore_of_between
            (inside.mono (le_refl _) stopped.location_le) earlier
          exact ended.mono (List.subset_cons_self _ _)
        · obtain rfl := List.mem_singleton.mp last
          exact ⟨_, body, List.mem_cons_self .., stopped.location_le⟩

/-! ## The rules of a new parser -/

namespace RuleTable

theorem get?_withBuiltins (builtins : List Text) (name : Text) :
    (withBuiltins builtins).get? name =
      (initial.get? name).or (if name ∈ builtins then some (.invocation .extra) else none) := by
  have entries := withBuiltins_entries builtins
  cases table : withBuiltins builtins with
  | mk rules =>
      rw [table] at entries
      obtain rfl : rules = _ := entries
      rw [get?_append, get?_commands]

theorem not_contains_withBuiltins {builtins : List Text} {name : Text} :
    (withBuiltins builtins).contains name = false ↔
      initial.contains name = false ∧ name ∉ builtins := by
  unfold Table.contains
  rw [get?_withBuiltins, Option.isSome_or, Bool.or_eq_false_iff]
  by_cases member : name ∈ builtins <;> simp [member]

/-- The only command among the keywords is the standard one. -/
theorem standard_of_get?_initial {name : Text} {kind : Callee}
    (known : initial.get? name = some (.invocation kind)) :
    kind = .standard ∧ name ∈ initial.calleesOf .standard := by
  obtain ⟨entry, first, rule⟩ := Option.map_eq_some_iff.mp known
  have same : entry.1 = name := by simpa using List.find?_some first
  have member := List.mem_of_find?_eq_some first
  have commands : ∀ entry ∈ initial.entries, ∀ kind, entry.2 = .invocation kind →
      kind = .standard := by
    simp [initial]
  obtain rfl := commands entry member kind rule
  refine ⟨rfl, ?_⟩
  unfold calleesOf
  rw [List.mem_map]
  exact ⟨entry, List.mem_filter.mpr ⟨member, by simp [rule]⟩, same⟩

theorem contains_of_standard {name : Text} (standard : name ∈ initial.calleesOf .standard) :
    initial.contains name = true := by
  obtain rfl : name = "echo".toList := List.mem_singleton.mp standard
  rfl

/-- A command that is known from the start is a standard one or an extra builtin. -/
theorem origin_of_get? {builtins : List Text} {name : Text} {kind : Callee}
    (known : (withBuiltins builtins).get? name = some (.invocation kind)) :
    kind = .standard ∧ name ∈ initial.calleesOf .standard ∨ kind = .extra ∧ name ∈ builtins := by
  rw [get?_withBuiltins] at known
  cases first : initial.get? name with
  | some rule =>
      rw [first, Option.some_or] at known
      cases known
      exact .inl (standard_of_get?_initial first)
  | none =>
      rw [first, Option.none_or] at known
      split at known
      · rename_i member
        cases known
        exact .inr ⟨rfl, member⟩
      · cases known

end RuleTable

/-- The extra builtins of a parser have no rule before. -/
theorem Parser.free_of_registerBuiltins {rules added : RuleTable} {builtins : List Text}
    (accepted : registerBuiltins rules builtins = .ok added) {name : Text}
    (member : name ∈ builtins) : rules.contains name = false := by
  induction builtins generalizing rules with
  | nil => cases member
  | cons first builtins ih =>
      rw [registerBuiltins] at accepted
      cases one : rules.register first .extra with
      | error refusal =>
          rw [one] at accepted
          cases refusal <;> cases accepted
      | ok table =>
          rw [one] at accepted
          obtain ⟨-, free, rfl⟩ := RuleTable.register_eq_ok.mp one
          rcases List.mem_cons.mp member with rfl | member
          · exact free
          · have later := ih accepted member
            unfold Table.contains RuleTable.withCommand at later
            rw [RuleTable.get?_append, Option.isSome_or, Bool.or_eq_false_iff] at later
            exact later.1

/-! ## Scripts that are read -/

/-- The kind of a call says where its name comes from: a standard command, an extra builtin, or a
function whose declaration ends before the call. The functions of a script have distinct names, none
of which is known from the start. -/
theorem calls_resolved (source : Text) (builtins : List Text) (tree : List Statement)
    (accepted : parse source builtins = .ok tree) :
    (∀ span name arguments kind,
        Statement.invocation span name arguments kind ∈ Statement.nodesAll tree →
          (kind = .standard ↔ name ∈ RuleTable.initial.calleesOf .standard) ∧
          (kind = .extra ↔ name ∈ builtins) ∧
          (kind = .declared ↔ ∃ place body,
            Statement.function place name body ∈ Statement.nodesAll tree ∧
              place.stop ≤ span.start) ∧
          ∀ place body, Statement.function place name body ∈ Statement.nodesAll tree →
            place.stop ≤ span.start) ∧
      (Statement.functionNames tree).Nodup ∧
      ∀ name ∈ Statement.functionNames tree,
        name ∉ builtins ∧ RuleTable.initial.contains name = false := by
  obtain ⟨p, q, started, run⟩ := parse_eq_ok.mp accepted
  obtain ⟨added, here⟩ := Parser.new_eq_ok.mp started
  have rules : p.rules = .withBuiltins builtins := Parser.registerBuiltins_eq added
  have parsed := Parser.statements_eq_ok_iff.mp run
  have calls := parsed.callsFrom (here ▸ clean_ofSource source)
  have grows := parsed.grows
  rw [rules] at calls grows
  have names := Statement.declarationsAll_perm tree
  have distinct : (Statement.functionNames tree).Nodup := names.nodup_iff.mp grows.distinct
  have fresh : ∀ name ∈ Statement.functionNames tree,
      RuleTable.initial.contains name = false ∧ name ∉ builtins := by
    intro name member
    exact RuleTable.not_contains_withBuiltins.mp (grows.fresh name (names.mem_iff.mpr member))
  refine ⟨?_, distinct, fun name member => (fresh name member).symm⟩
  intro span name arguments kind member
  -- The three origins of a name exclude each other.
  have function_fresh : ∀ place body,
      Statement.function place name body ∈ Statement.nodesAll tree →
        RuleTable.initial.contains name = false ∧ name ∉ builtins :=
    fun place body member => fresh name (Statement.mem_functionNames.mpr ⟨place, body, member⟩)
  have not_standard : RuleTable.initial.contains name = false →
      name ∉ RuleTable.initial.calleesOf .standard := by
    intro free standard
    rw [RuleTable.contains_of_standard standard] at free
    cases free
  rcases calls span name arguments kind member with known | ⟨rfl, place, body, function, ends⟩
  · rcases RuleTable.origin_of_get? known with ⟨rfl, standard⟩ | ⟨rfl, extra⟩
    · have no_extra : name ∉ builtins := fun extra =>
        not_standard (Parser.free_of_registerBuiltins added extra) standard
      have no_function : ∀ place body,
          Statement.function place name body ∉ Statement.nodesAll tree := fun place body function =>
        not_standard (function_fresh place body function).1 standard
      simp [standard, no_extra, no_function]
    · have no_standard := not_standard (Parser.free_of_registerBuiltins added extra)
      have no_function : ∀ place body,
          Statement.function place name body ∉ Statement.nodesAll tree := fun place body function =>
        (function_fresh place body function).2 extra
      simp [no_standard, extra, no_function]
  · obtain ⟨free, no_extra⟩ := function_fresh place body function
    have no_standard := not_standard free
    refine ⟨by simp [no_standard], by simp [no_extra], ?_, ?_⟩
    · exact ⟨fun _ => ⟨place, body, function, ends⟩, fun _ => rfl⟩
    · intro other inside function'
      have same := eq_of_filterMap_nodup distinct function' function rfl rfl
      cases same
      exact ends

/-- A call of the inner function behind its declaration, with the outer function still open. -/
theorem calls_resolved_nested :
    ∃ tree,
      parse ("function f() \x7b\n  function g() \x7b h; \x7d\n  g\n\x7d\n".toList ++
        "f; echo x".toList) ["h".toList] = .ok tree ∧
      Statement.functionNames tree = [['f'], ['g']] ∧ (Statement.functionNames tree).Nodup ∧
      Statement.invocation ⟨⟨3, 2⟩, ⟨3, 3⟩⟩ ['g'] [] .declared ∈ Statement.nodesAll tree ∧
      ∃ place body, Statement.function place ['g'] body ∈ Statement.nodesAll tree ∧
        place.stop ≤ ⟨3, 2⟩ := by
  have accepted :
      parse ("function f() \x7b\n  function g() \x7b h; \x7d\n  g\n\x7d\n".toList ++
        "f; echo x".toList) ["h".toList] = .ok
        [.function ⟨⟨1, 0⟩, ⟨4, 1⟩⟩ ['f']
          [.function ⟨⟨2, 2⟩, ⟨2, 21⟩⟩ ['g'] [.invocation ⟨⟨2, 17⟩, ⟨2, 18⟩⟩ ['h'] [] .extra],
            .invocation ⟨⟨3, 2⟩, ⟨3, 3⟩⟩ ['g'] [] .declared],
        .invocation ⟨⟨5, 0⟩, ⟨5, 1⟩⟩ ['f'] [] .declared,
        .invocation ⟨⟨5, 3⟩, ⟨5, 9⟩⟩ "echo".toList [⟨⟨⟨5, 8⟩, ⟨5, 9⟩⟩, .literal, ['x']⟩]
          .standard] := by
    cbv
  obtain ⟨calls, distinct, -⟩ := calls_resolved _ _ _ accepted
  have call : Statement.invocation ⟨⟨3, 2⟩, ⟨3, 3⟩⟩ ['g'] [] .declared ∈ Statement.nodesAll
      [.function ⟨⟨1, 0⟩, ⟨4, 1⟩⟩ ['f']
          [.function ⟨⟨2, 2⟩, ⟨2, 21⟩⟩ ['g'] [.invocation ⟨⟨2, 17⟩, ⟨2, 18⟩⟩ ['h'] [] .extra],
            .invocation ⟨⟨3, 2⟩, ⟨3, 3⟩⟩ ['g'] [] .declared],
        .invocation ⟨⟨5, 0⟩, ⟨5, 1⟩⟩ ['f'] [] .declared,
        .invocation ⟨⟨5, 3⟩, ⟨5, 9⟩⟩ "echo".toList [⟨⟨⟨5, 8⟩, ⟨5, 9⟩⟩, .literal, ['x']⟩]
          .standard] := by
    simp [Statement.nodesAll, Statement.nodes]
  exact ⟨_, accepted, rfl, distinct, call, (calls _ _ _ _ call).2.2.1.mp rfl⟩

end ShellLift
