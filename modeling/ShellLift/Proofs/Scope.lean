import ShellLift.Proofs.Resolution

/-!
# Where a function can be called

The rules know a function from the end of its declaration on, wherever the declaration stands. In
the emitted code a function that is declared inside another one belongs to that one, so a call of it
is in scope only inside the outer function. The two agree on a call exactly if no function around
the declaration has ended before the call.

The proof is about places alone: statements stand one behind the other, and what is inside a
statement stands between its start and its end.
-/

set_option autoImplicit false

namespace ShellLift

/-! ## Statements and what is around them -/

namespace Statement

mutual

theorem body_induction {motive : List Statement → Prop} (nil : motive [])
    (cons : ∀ statement others, motive (body statement) → motive others →
      motive (statement :: others)) : ∀ statement : Statement, motive statement.body
  | assignment .. => nil
  | conditional _ _ inside => forest_induction nil cons inside
  | function _ _ inside => forest_induction nil cons inside
  | invocation .. => nil

/-- Statements are a first one, what is inside it, and the others. -/
theorem forest_induction {motive : List Statement → Prop} (nil : motive [])
    (cons : ∀ statement others, motive (body statement) → motive others →
      motive (statement :: others)) : ∀ statements : List Statement, motive statements
  | [] => nil
  | statement :: others =>
      cons statement others (body_induction nil cons statement) (forest_induction nil cons others)

end

end Statement

structure Site where
  owners : List Statement
  statement : Statement

namespace Statement

/-- What stands inside a statement: a declaration is around it, a conditional does not count. -/
def enclose (outer : Statement) (inner : Site) : Site :=
  match outer with
  | function .. => ⟨outer :: inner.owners, inner.statement⟩
  | _ => inner

mutual

def sites : Statement → List Site
  | assignment span kind target value => [⟨[], assignment span kind target value⟩]
  | conditional span condition body =>
    ⟨[], conditional span condition body⟩ ::
      (sitesAll body).map (enclose (conditional span condition body))
  | function span name body =>
    ⟨[], function span name body⟩ :: (sitesAll body).map (enclose (function span name body))
  | invocation span name arguments kind => [⟨[], invocation span name arguments kind⟩]

def sitesAll : List Statement → List Site
  | [] => []
  | statement :: others => sites statement ++ sitesAll others

end

theorem sitesAll_cons (statement : Statement) (others : List Statement) :
    sitesAll (statement :: others) =
      ⟨[], statement⟩ :: ((sitesAll statement.body).map statement.enclose ++ sitesAll others) := by
  cases statement <;> rfl

theorem mem_sitesAll_cons {statement : Statement} {others : List Statement} {site : Site} :
    site ∈ sitesAll (statement :: others) ↔ site = ⟨[], statement⟩ ∨
      (∃ inner ∈ sitesAll statement.body, statement.enclose inner = site) ∨
        site ∈ sitesAll others := by
  rw [sitesAll_cons, List.mem_cons, List.mem_append, List.mem_map]

theorem enclose_statement (outer : Statement) (inner : Site) :
    (outer.enclose inner).statement = inner.statement := by
  cases outer <;> rfl

theorem mem_enclose_owners {outer owner : Statement} {inner : Site} :
    owner ∈ (outer.enclose inner).owners ↔
      owner ∈ inner.owners ∨ owner = outer ∧
        ∃ span name body, outer = .function span name body := by
  cases outer with
  | function span name body => simp [enclose, or_comm]
  | assignment span kind target value => simp [enclose]
  | conditional span condition body => simp [enclose]
  | invocation span name arguments kind => simp [enclose]

theorem map_sitesAll (statements : List Statement) :
    (sitesAll statements).map Site.statement = nodesAll statements := by
  induction statements using forest_induction with
  | nil => rfl
  | cons statement others ihBody ih =>
      have inside : Site.statement ∘ statement.enclose = Site.statement :=
        funext statement.enclose_statement
      rw [sitesAll_cons, nodesAll_cons, List.map_cons, List.map_append, List.map_map,
        inside, ihBody,
        ih]

theorem mem_nodesAll_of_site {statements : List Statement} {site : Site}
    (member : site ∈ sitesAll statements) : site.statement ∈ nodesAll statements := by
  rw [← map_sitesAll]
  exact List.mem_map_of_mem member

theorem exists_site {statements : List Statement} {node : Statement}
    (member : node ∈ nodesAll statements) : ∃ owners, ⟨owners, node⟩ ∈ sitesAll statements := by
  rw [← map_sitesAll] at member
  obtain ⟨⟨owners, statement⟩, site, rfl⟩ := List.mem_map.mp member
  exact ⟨owners, site⟩

theorem mem_nodesAll_cons {node statement : Statement} {others : List Statement} :
    node ∈ nodesAll (statement :: others) ↔
      node = statement ∨ node ∈ nodesAll statement.body ∨ node ∈ nodesAll others := by
  rw [nodesAll_cons, List.mem_cons, List.mem_append]

/-- The declarations around a statement are those that have it somewhere inside. -/
theorem owner_of_site {statements : List Statement} {site : Site}
    (member : site ∈ sitesAll statements) {owner : Statement} (around : owner ∈ site.owners) :
    ∃ span name body, owner = .function span name body ∧ owner ∈ nodesAll statements ∧
      site.statement ∈ nodesAll body := by
  induction statements using forest_induction generalizing site with
  | nil => cases member
  | cons statement others ihBody ih =>
      simp only [mem_nodesAll_cons]
      rcases mem_sitesAll_cons.mp member with rfl | ⟨inner, found, rfl⟩ | later
      · cases around
      · rw [enclose_statement]
        rcases mem_enclose_owners.mp around with around | ⟨rfl, span, name, body, rfl⟩
        · obtain ⟨span, name, body, shape, node, deeper⟩ := ihBody found around
          exact ⟨span, name, body, shape, .inr (.inl node), deeper⟩
        · exact ⟨span, name, body, rfl, .inl rfl, mem_nodesAll_of_site found⟩
      · obtain ⟨span, name, body, shape, node, deeper⟩ := ih later around
        exact ⟨span, name, body, shape, .inr (.inr node), deeper⟩

theorem exists_site_inside {statements : List Statement} {span : Span} {name : Text}
    {body : List Statement} (outer : function span name body ∈ nodesAll statements)
    {node : Statement} (inner : node ∈ nodesAll body) :
    ∃ owners, ⟨owners, node⟩ ∈ sitesAll statements ∧ function span name body ∈ owners := by
  induction statements using forest_induction with
  | nil => cases outer
  | cons statement others ihBody ih =>
      simp only [mem_sitesAll_cons]
      rcases mem_nodesAll_cons.mp outer with rfl | inside | later
      · obtain ⟨owners, found⟩ := exists_site inner
        exact ⟨_, .inr (.inl ⟨_, found, rfl⟩), List.mem_cons_self ..⟩
      · obtain ⟨owners, found, around⟩ := ihBody inside
        have site : statement.enclose ⟨owners, node⟩ =
            ⟨(statement.enclose ⟨owners, node⟩).owners, node⟩ :=
          congrArg (Site.mk _) (statement.enclose_statement ⟨owners, node⟩)
        exact ⟨_, .inr (.inl ⟨_, found, site⟩), mem_enclose_owners.mpr (.inl around)⟩
      · obtain ⟨owners, found, around⟩ := ih later
        exact ⟨owners, .inr (.inr found), around⟩

end Statement

/-! ## What ends before a statement -/

namespace Laid

variable {start stop : Location} {statements : List Statement}

theorem within_site (laid : Laid start statements stop) :
    ∀ site ∈ Statement.sitesAll statements,
      start ≤ site.statement.span.start ∧ site.statement.span.start < site.statement.span.stop ∧
        site.statement.span.stop ≤ stop :=
  fun _ member => laid.within _ (Statement.mem_nodesAll_of_site member)

/-- A statement ends inside the declarations around it. -/
theorem stop_le_owner (laid : Laid start statements stop) :
    ∀ site ∈ Statement.sitesAll statements, ∀ owner ∈ site.owners,
      site.statement.span.stop ≤ owner.span.stop := by
  induction laid with
  | nil _ => exact fun site member => absurd member List.not_mem_nil
  | cons _ _ inside _ ihBody ih =>
      rw [Statement.sitesAll_cons, List.forall_mem_cons, List.forall_mem_append,
        List.forall_mem_map]
      refine ⟨fun owner none => absurd none List.not_mem_nil, ?_, ih⟩
      intro site member owner around
      rw [Statement.enclose_statement]
      rcases Statement.mem_enclose_owners.mp around with around | ⟨rfl, -⟩
      · exact ihBody site member owner around
      · exact (inside.within_site site member).2.2

end Laid

/-- From one place another one is reached: the declarations around the first are around the second
too, or one of them ends before the second. -/
def Reaches (first second : Site) : Prop :=
  first.owners <+: second.owners ∨
    ∃ owner ∈ first.owners, owner.span.stop ≤ second.statement.span.start

theorem reaches_of_owners {first second : Site} {middle : Location}
    (ended : ∀ owner ∈ first.owners, owner.span.stop ≤ middle)
    (behind : middle ≤ second.statement.span.start) : Reaches first second := by
  cases owners : first.owners with
  | nil => exact .inl (owners ▸ List.nil_prefix)
  | cons owner more =>
      have around : owner ∈ first.owners := owners ▸ List.mem_cons_self ..
      exact .inr ⟨owner, around, le_trans (ended owner around) behind⟩

theorem Reaches.enclose {first second : Site} (reaches : Reaches first second)
    (outer : Statement) : Reaches (outer.enclose first) (outer.enclose second) := by
  rcases reaches with front | ⟨owner, around, ended⟩
  · left
    cases outer with
    | function span name body => exact (List.prefix_cons_inj _).mpr front
    | assignment span kind target value => exact front
    | conditional span condition body => exact front
    | invocation span name arguments kind => exact front
  · refine .inr ⟨owner, Statement.mem_enclose_owners.mpr (.inl around), ?_⟩
    rwa [Statement.enclose_statement]

/-- What ends before a statement starts reaches it. -/
theorem Laid.reaches {start stop : Location} {statements : List Statement}
    (laid : Laid start statements stop) :
    ∀ first ∈ Statement.sitesAll statements, ∀ second ∈ Statement.sitesAll statements,
      first.statement.span.stop ≤ second.statement.span.start → Reaches first second := by
  induction laid with
  | nil _ => exact fun first member => absurd member List.not_mem_nil
  | @cons start stop statement others begins room inside rest ihBody ih =>
      have within := inside.within_site
      have later := rest.within_site
      -- What is behind the statement does not end before a place inside it.
      have no_return : ∀ site ∈ Statement.sitesAll others, ∀ place, place < statement.span.stop →
          ¬ site.statement.span.stop ≤ place := by
        intro site member place before ended
        obtain ⟨behind, between, -⟩ := later site member
        exact lt_irrefl _ (lt_of_lt_of_le before (le_trans behind (le_trans between.le ended)))
      intro first firstMember second secondMember ends
      rcases Statement.mem_sitesAll_cons.mp firstMember with rfl | ⟨inner, found, rfl⟩ | firstLater
      · exact .inl List.nil_prefix
      · rw [Statement.enclose_statement] at ends
        rcases Statement.mem_sitesAll_cons.mp secondMember with
          rfl | ⟨inner', found', rfl⟩ | secondLater
        · obtain ⟨from_start, between, -⟩ := within inner found
          exact absurd (lt_of_lt_of_le between ends) (not_lt_of_ge from_start)
        · rw [Statement.enclose_statement] at ends
          exact (ihBody inner found inner' found' ends).enclose statement
        · refine reaches_of_owners ?_ (later second secondLater).1
          intro owner around
          rcases Statement.mem_enclose_owners.mp around with around | ⟨rfl, -⟩
          · obtain ⟨-, -, -, -, node, -⟩ := Statement.owner_of_site found around
            exact (inside.within owner node).2.2
          · exact le_refl _
      · rcases Statement.mem_sitesAll_cons.mp secondMember with
          rfl | ⟨inner, found, rfl⟩ | secondLater
        · exact absurd ends (no_return first firstLater _ room)
        · rw [Statement.enclose_statement] at ends
          obtain ⟨-, between, to_stop⟩ := within inner found
          exact absurd ends (no_return first firstLater _ (lt_of_lt_of_le between to_stop))
        · exact ih first firstLater second secondLater ends

/-! ## Calls in scope -/

namespace Statement

/-- At a place inside the given declarations the name is bound: a declaration of it ends before the
place, and each declaration around that one is around the place too. -/
def InScope (tree owners : List Statement) (name : Text) (place : Location) : Prop :=
  ∃ outer span body, ⟨outer, function span name body⟩ ∈ sitesAll tree ∧ span.stop ≤ place ∧
    outer <+: owners

/-- A function that declares the name somewhere inside ends before the place. -/
def LeftBehind (tree : List Statement) (name : Text) (place : Location) : Prop :=
  ∃ span around body, function span around body ∈ nodesAll tree ∧ name ∈ functionNames body ∧
    span.stop ≤ place

/-- The name of a function tells its declaration and the declarations around that. -/
theorem site_eq_of_functionName {tree : List Statement} (distinct : (functionNames tree).Nodup)
    {first second : Site} (first_mem : first ∈ sitesAll tree) (second_mem : second ∈ sitesAll tree)
    {name : Text} (first_name : functionName? first.statement = some name)
    (second_name : functionName? second.statement = some name) : first = second := by
  have names : (sitesAll tree).filterMap (functionName? ∘ Site.statement) = functionNames tree := by
    rw [← List.filterMap_map, map_sitesAll, functionNames]
  rw [← names] at distinct
  exact eq_of_filterMap_nodup distinct first_mem second_mem first_name second_name

/-- A function that was declared before a call is in scope there if nothing around its declaration
was left behind. -/
theorem inScope_iff_not_leftBehind {tree : List Statement} {start stop : Location}
    (laid : Laid start tree stop) (distinct : (functionNames tree).Nodup) {owners : List Statement}
    {call : Statement} (called : ⟨owners, call⟩ ∈ sitesAll tree) {name : Text}
    (declared : DeclaredBefore (nodesAll tree) name call.span.start) :
    InScope tree owners name call.span.start ↔ ¬ LeftBehind tree name call.span.start := by
  constructor
  · rintro ⟨outer, span, body, site, -, front⟩ ⟨place, around, inside, function_mem, named, left⟩
    obtain ⟨span', body', inner⟩ := mem_functionNames.mp named
    obtain ⟨outer', site', owner⟩ := exists_site_inside function_mem inner
    cases site_eq_of_functionName distinct site' site rfl rfl
    have room := (laid.within_site _ called).2.1
    have ends := laid.stop_le_owner _ called _ (front.subset owner)
    exact lt_irrefl _ (lt_of_lt_of_le room (le_trans ends left))
  · intro reachable
    obtain ⟨span, body, function_mem, ends⟩ := declared
    obtain ⟨outer, site⟩ := exists_site function_mem
    rcases laid.reaches _ site _ called ends with front | ⟨owner, around, left⟩
    · exact ⟨outer, span, body, site, ends, front⟩
    · obtain ⟨place, name', inside, rfl, owner_mem, inner⟩ := owner_of_site site around
      have named : name ∈ functionNames inside := mem_functionNames.mpr ⟨span, body, inner⟩
      exact absurd ⟨place, name', inside, owner_mem, named, left⟩ reachable

end Statement

/-- A call of a function is in scope in the code exactly if no function that declares it inside has
ended before the call. -/
theorem declared_call_inScope_iff (settings : Settings) (source : Text) (builtins : List Text)
    (code : Text) (lifted : lift settings source builtins = .ok code) :
    ∃ tree, parse source builtins = .ok tree ∧ Code.ofScript settings tree = .ok code ∧
      ∀ owners span name arguments,
        ⟨owners, .invocation span name arguments .declared⟩ ∈ Statement.sitesAll tree →
          (Statement.InScope tree owners name span.start ↔
            ¬ Statement.LeftBehind tree name span.start) := by
  obtain ⟨tree, accepted, emitted⟩ := lift_eq_ok.mp lifted
  refine ⟨tree, accepted, emitted, ?_⟩
  obtain ⟨p, q, parsed, clean, -, rules⟩ := Parser.parsed_of_parse accepted
  have distinct : (Statement.functionNames tree).Nodup :=
    (Statement.declarationsAll_perm tree).nodup_iff.mp parsed.grows.distinct
  intro owners span name arguments called
  refine Statement.inScope_iff_not_leftBehind (parsed.laid clean) distinct called ?_
  have node := Statement.mem_nodesAll_of_site called
  rcases parsed.callsFrom clean span name arguments .declared node with known | ⟨-, before⟩
  · -- At the start no name is a declared function.
    rw [rules] at known
    rcases RuleTable.origin_of_get? known with ⟨kind, -⟩ | ⟨kind, -⟩ <;> cases kind
  · exact before

/-- The inner function is called next to its declaration, and again behind the outer function. -/
theorem declared_call_inScope_iff_nested :
    ∃ tree,
      parse "function f() \x7b\n  function g() \x7b echo x; \x7d\n  g\n\x7d\ng".toList [] =
        .ok tree ∧
      (∃ code, Code.ofScript .initial tree = .ok code) ∧
      (∃ outer, ⟨[outer], .invocation ⟨⟨3, 2⟩, ⟨3, 3⟩⟩ ['g'] [] .declared⟩ ∈
          Statement.sitesAll tree ∧
        Statement.InScope tree [outer] ['g'] ⟨3, 2⟩) ∧
      ⟨[], .invocation ⟨⟨5, 0⟩, ⟨5, 1⟩⟩ ['g'] [] .declared⟩ ∈ Statement.sitesAll tree ∧
      ¬ Statement.InScope tree [] ['g'] ⟨5, 0⟩ := by
  let inner : Statement := .function ⟨⟨2, 2⟩, ⟨2, 26⟩⟩ ['g']
    [.invocation ⟨⟨2, 17⟩, ⟨2, 23⟩⟩ "echo".toList [⟨⟨⟨2, 22⟩, ⟨2, 23⟩⟩, .literal, ['x']⟩] .standard]
  let near : Statement := .invocation ⟨⟨3, 2⟩, ⟨3, 3⟩⟩ ['g'] [] .declared
  let far : Statement := .invocation ⟨⟨5, 0⟩, ⟨5, 1⟩⟩ ['g'] [] .declared
  have accepted :
      parse "function f() \x7b\n  function g() \x7b echo x; \x7d\n  g\n\x7d\ng".toList [] = .ok
        [.function ⟨⟨1, 0⟩, ⟨4, 1⟩⟩ ['f'] [inner, near], far] := by
    cbv
  obtain ⟨code, lifted⟩ : ∃ code, lift .initial
      "function f() \x7b\n  function g() \x7b echo x; \x7d\n  g\n\x7d\ng".toList [] = .ok code := by
    rw [lift, accepted]
    exact ⟨_, rfl⟩
  obtain ⟨tree, accepted', emitted, calls⟩ := declared_call_inScope_iff _ _ _ _ lifted
  obtain rfl : _ = tree := Except.ok.inj (accepted.symm.trans accepted')
  have near_mem : ⟨[.function ⟨⟨1, 0⟩, ⟨4, 1⟩⟩ ['f'] [inner, near]], near⟩ ∈
      Statement.sitesAll [.function ⟨⟨1, 0⟩, ⟨4, 1⟩⟩ ['f'] [inner, near], far] := by
    simp [Statement.sitesAll, Statement.sites, Statement.enclose, inner, near]
  have far_mem : ⟨[], far⟩ ∈
      Statement.sitesAll [.function ⟨⟨1, 0⟩, ⟨4, 1⟩⟩ ['f'] [inner, near], far] := by
    simp [Statement.sitesAll, Statement.sites, far]
  refine ⟨_, accepted, ⟨code, emitted⟩, ⟨_, near_mem, (calls _ _ _ _ near_mem).mpr ?_⟩, far_mem, ?_⟩
  · rintro ⟨span, around, body, member, named, left⟩
    simp only [Statement.nodesAll, Statement.nodes, inner, near, far, List.append_nil,
      List.nil_append, List.cons_append, List.mem_cons, Statement.function.injEq, reduceCtorEq,
      List.not_mem_nil, or_false] at member
    rcases member with ⟨rfl, -, -⟩ | ⟨-, -, rfl⟩
    · exact absurd left (by decide)
    · simp [Statement.functionNames, Statement.nodesAll, Statement.nodes, Statement.functionName?]
        at named
  · rw [calls _ _ _ _ far_mem, not_not]
    refine ⟨_, _, _, List.mem_cons_self .., ?_, by decide⟩
    simp [Statement.functionNames, Statement.nodesAll, Statement.nodes, Statement.functionName?,
      inner]

end ShellLift
