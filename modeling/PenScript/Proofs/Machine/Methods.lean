import PenScript.Proofs.Block.Body
import PenScript.Proofs.Machine.Invariant
import PenScript.Proofs.Scope.Lookup

/-!
# The method table

A call runs the body of a method with the map that was stored with it and looks at neither again.
What makes this right is that a method comes into the table in one way only: a line of a block that
is being run defines it, and its body is a part of that block (`Method.Stored`). The block is itself
one that the interpreter was given or the body of such a method, so it is nested in what was given
at some depth (`Block.Within`). Lines that are run keep this up (`MethodTable.Filed.invariant`).

`Interpreter.Ran` follows an interpreter through all that its users may do with it and keeps the
blocks that it was given, and `method_table_sound` says what holds of the table then, and at every
point of every run.
-/

namespace PenScript

/-- The block is one of the given blocks, or the body of a method in such a block, at any depth. -/
inductive Block.Within (given : List Block) : Block → Prop where
  | given {block : Block} : block ∈ given → Within given block
  | body {outer inner : Block} {opener closer : Nat} :
      Within given outer → outer.Body opener closer inner → Within given inner

/-- The method was defined between two lines of the outer block: its name and its parameters are
those of the header, and its map is the part of the outer map for its body. No pair of the outer map
leads out of the body. -/
structure Method.DefinedIn (method : Method) (outer : Block) (opener closer : Nat) : Prop where
  body : outer.Body opener closer method.block
  header : ∃ line, outer.lines[opener]? = some line ∧
    Method.signature (Line.splitWord line).2 = .ok (method.name, method.parameters)
  map : method.block.map = outer.map.restrict (opener + 1) closer
  pairs : ∀ index, index < method.block.lines.size →
    outer.map.partner? (opener + 1 + index) =
        (method.block.map.partner? index).map (opener + 1 + ·) ∧
      outer.map.else? (opener + 1 + index) =
        (method.block.map.else? index).map (opener + 1 + ·)

/-- What is known of a method that is stored: its name and its parameters are names, which differ
from each other, its map is that of its body, wherever the body starts, and it was defined in a
block that was given or in the body of a method in it. -/
structure Method.Stored (given : List Block) (method : Method) : Prop where
  name : Text.isIdentifier method.name = true
  parameters : ∀ parameter ∈ method.parameters, Text.isIdentifier parameter = true
  distinct : method.parameters.Nodup
  built : ∀ number, BlockMap.build method.block.lines.toList number = .ok method.block.map
  defined : ∃ outer opener closer, outer.Within given ∧ method.DefinedIn outer opener closer

/-- The methods are filed under their names in small letters. -/
structure MethodTable.Filed (given : List Block) (table : MethodTable) : Prop where
  key : ∀ entry ∈ table.methods.entries, entry.1 = Text.toLower entry.2.name
  stored : ∀ entry ∈ table.methods.entries, entry.2.Stored given

/-- The methods are filed, and the names of any two differ in more than the case of letters. -/
structure MethodTable.Sound (given : List Block) (table : MethodTable) : Prop
    extends table.Filed given where
  distinct : table.methods.entries.Pairwise fun first second ↦
    Text.sameIgnoringCase first.2.name second.2.name = false

section Definition

variable {header name : Text} {parameters seen : List Text} {block : Block} {state : State}
  {line : Text} {given : List Block} {table : MethodTable}

/-- Parameters that pass the check are names, and differ from each other and from those before. -/
theorem Method.check_parameters_ok (h : checkParameters seen parameters = .ok ()) :
    (∀ parameter ∈ parameters, Text.isIdentifier parameter = true) ∧ parameters.Nodup ∧
      ∀ parameter ∈ parameters, parameter ∉ seen := by
  induction parameters generalizing seen with
  | nil => exact ⟨List.forall_mem_nil _, .nil, List.forall_mem_nil _⟩
  | cons first rest ih =>
      rw [checkParameters] at h
      split at h
      · cases h
      · split at h
        · cases h
        · rename_i hname hnew
          obtain ⟨hnames, hdistinct, hothers⟩ := ih h
          rw [Bool.not_eq_true', Bool.not_eq_false] at hname
          rw [List.contains_iff_mem] at hnew
          have hfirst : first ∉ rest := fun hmem ↦ hothers first hmem List.mem_cons_self
          refine ⟨List.forall_mem_cons.mpr ⟨hname, hnames⟩, List.nodup_cons.mpr ⟨hfirst, hdistinct⟩,
            List.forall_mem_cons.mpr ⟨hnew, fun parameter hmem hold ↦ ?_⟩⟩
          exact hothers parameter hmem (List.mem_cons_of_mem first hold)

/-- What a header holds that is read. -/
theorem Method.signature_ok (h : signature header = .ok (name, parameters)) :
    Text.isIdentifier name = true ∧
      (∀ parameter ∈ parameters, Text.isIdentifier parameter = true) ∧ parameters.Nodup := by
  obtain ⟨hname, h⟩ := ok_of_refused h
  obtain ⟨text, -, h⟩ := ok_of_bind h
  obtain ⟨_, hcheck, h⟩ := ok_of_bind h
  obtain ⟨rfl, rfl⟩ := Prod.mk.inj (Except.ok.inj h)
  rw [Bool.not_eq_true', Bool.not_eq_false] at hname
  obtain ⟨hnames, hdistinct, -⟩ := check_parameters_ok hcheck
  exact ⟨hname, hnames, hdistinct⟩

/-- The definition of a method has no `else`. -/
theorem BlockAt.no_else {kinds : List LineKind} {opener closer : Nat} {alternative : Option Nat}
    (h : BlockAt kinds .method opener alternative closer) : alternative = none := by
  obtain ⟨before, kind, offset, inner, after, rfl, hinner, rfl, rfl, -⟩ := h.encloses
  have hopens := h.opens
  rw [List.getElem?_append_right (Nat.le_refl _), Nat.sub_self] at hopens
  cases hinner with
  | body => rfl
  | branches => cases hopens

/-- The body of a method that a line of a block defines. -/
theorem Block.body_of_define {target : Nat} {frames : List Frame} {method : Method}
    (hline : block.lines[state.cursor]? = some line)
    (hdecide : state.decide block line = .ok (.move target frames (.define method))) :
    ∃ closer, method.DefinedIn block state.cursor closer := by
  obtain ⟨hkind, closer, hcloser, hdefine⟩ := decide_define hdecide
  obtain ⟨hsignature, hblock⟩ := Method.define_ok hdefine
  obtain ⟨hlines, hfirst⟩ := Block.lines_of_ok hblock
  have hopens := hkind ▸ Block.kind_at hline
  obtain ⟨alternative, last, hencloses⟩ := block.well_nested.encloses hopens
  have hat : BlockAt block.kinds .method state.cursor alternative last := ⟨hencloses, hopens⟩
  obtain rfl := hat.no_else
  obtain rfl : closer = last := by
    rw [Block.closer, (Block.map_of_encloses hencloses).1] at hcloser
    exact (Except.ok.inj hcloser).symm
  have hbody : block.Body state.cursor closer method.block := ⟨hat, hlines, hfirst⟩
  exact ⟨closer, hbody, ⟨line, hline, hsignature⟩, hbody.map_eq, fun _ ↦ hbody.pairs_eq⟩

/-- A method that a line of a block defines can be stored. -/
theorem Method.Stored.of_define (hblock : block.Within given) {target : Nat} {frames : List Frame}
    {method : Method} (hline : block.lines[state.cursor]? = some line)
    (hdecide : state.decide block line = .ok (.move target frames (.define method))) :
    method.Stored given := by
  obtain ⟨closer, hdefined⟩ := Block.body_of_define hline hdecide
  obtain ⟨_, -, hsignature⟩ := hdefined.header
  obtain ⟨hname, hparameters, hdistinct⟩ := signature_ok hsignature
  exact ⟨hname, hparameters, hdistinct, BlockMap.build_renumber method.block.nested,
    block, state.cursor, closer, hblock, hdefined⟩

end Definition

section Given

variable {given more : List Block}

/-- A block in given ones is in more of them. -/
theorem Block.Within.mono {block : Block} (h : block.Within given) (hsub : given ⊆ more) :
    block.Within more := by
  induction h with
  | given hmem => exact .given (hsub hmem)
  | body _ hbody ih => exact ih.body hbody

/-- A table that is filed stays so when more blocks are given. -/
theorem MethodTable.Filed.mono {table : MethodTable} (h : table.Filed given) (hsub : given ⊆ more) :
    table.Filed more where
  key := h.key
  stored entry hentry := by
    obtain ⟨hname, hparameters, hdistinct, hbuilt, outer, opener, closer, houter, hdefined⟩ :=
      h.stored entry hentry
    exact ⟨hname, hparameters, hdistinct, hbuilt, outer, opener, closer, houter.mono hsub, hdefined⟩

/-- Lines of the given blocks, and of the bodies of methods in them, keep the table filed. -/
theorem MethodTable.Filed.invariant (given : List Block) :
    Interpreter.Invariant (·.Within given) (·.methods.Filed given) where
  congr other h hmethods _ := by
    rw [hmethods]
    exact h
  body h hget := by
    obtain ⟨outer, opener, closer, houter, hdefined⟩ :=
      (h.stored _ (NameMap.mem_entries_iff.mpr hget)).defined
    exact houter.body hdefined.body
  define hblock hline hdecide h := by
    constructor <;> intro entry hentry <;> rcases NameMap.mem_insert_entry hentry with rfl | hold
    · rfl
    · exact h.key entry hold
    · exact .of_define hblock hline hdecide
    · exact h.stored entry hold
  record _ _ _ _ h := h

end Given

/-- Methods that are filed under their names have different names. -/
theorem MethodTable.Filed.sound {given : List Block} {table : MethodTable}
    (h : table.Filed given) : table.Sound given := by
  refine ⟨h, table.methods.sorted.imp_of_mem fun {first second} hfirst hsecond hlt ↦ ?_⟩
  rw [h.key first hfirst, h.key second hsecond] at hlt
  rw [Text.sameIgnoringCase, beq_eq_false_iff_ne]
  intro hsame
  rw [hsame] at hlt
  exact List.lt_irrefl _ hlt

namespace Interpreter

variable {interpreter : Interpreter} {blocks : List Block}

/-- The block of some lines, when they nest. -/
def blocksOf (lines : List Text) (firstLine : Nat) : List Block :=
  match Block.ofLines lines.toArray firstLine with
  | .ok block => [block]
  | .error _ => []

/-- An interpreter as its users may have it, and the blocks of lines that it was given since it was
new or was last reset. Its users may change the canvas and the registry, and carry out the effect of
a statement by themselves. -/
inductive Ran : Interpreter → List Block → Prop where
  | new (options : Options) (registry : Registry) : Ran (.new options registry) []
  | reset {interpreter : Interpreter} {blocks : List Block} :
      Ran interpreter blocks → Ran interpreter.reset []
  | setStrict {interpreter : Interpreter} {blocks : List Block} (strict : Bool) :
      Ran interpreter blocks → Ran (interpreter.setStrict strict) blocks
  | canvas {interpreter : Interpreter} {blocks : List Block} (canvas : Canvas) :
      Ran interpreter blocks → Ran { interpreter with canvas := canvas } blocks
  | registry {interpreter : Interpreter} {blocks : List Block} (registry : Registry) :
      Ran interpreter blocks → Ran { interpreter with registry := registry } blocks
  | feed {interpreter : Interpreter} {blocks : List Block} {fuel : Nat} {lines : List Text}
      {outcome : RunOutcome} :
      Ran interpreter blocks → interpreter.feed fuel lines = some outcome →
      Ran outcome.interpreter (blocksOf lines interpreter.nextLine ++ blocks)
  | executeBlock {interpreter : Interpreter} {blocks : List Block} {fuel firstLine : Nat}
      {lines : List Text} {scope : Scope} {outcome : Outcome} :
      Ran interpreter blocks →
      interpreter.executeBlock fuel lines firstLine scope = some outcome →
      Ran outcome.interpreter (blocksOf lines firstLine ++ blocks)
  | callMethod {interpreter : Interpreter} {blocks : List Block} {fuel : Nat} {name : Text}
      {arguments : List Text} {caller : Scope} {outcome : CallOutcome} :
      Ran interpreter blocks →
      interpreter.callMethod fuel name arguments caller = some outcome →
      Ran outcome.interpreter blocks
  | perform {interpreter : Interpreter} {blocks : List Block} {fuel : Nat} {scope : Scope}
      {effect : Except Error Effect} {outcome : Outcome} :
      Ran interpreter blocks → interpreter.perform fuel scope effect = some outcome →
      Ran outcome.interpreter blocks

/-- The interpreter starts to run a block, which it is given with the run or which is the body of a
method. -/
inductive Begins (interpreter : Interpreter) : List Block → Block → State → Prop where
  | feed {lines : List Text} {block : Block} :
      Block.ofLines lines.toArray interpreter.nextLine = .ok block →
      Begins interpreter [block] block
        (.start interpreter.globals (interpreter.ready lines.length))
  | executeBlock {lines : List Text} {firstLine : Nat} {block : Block} {scope : Scope} :
      Block.ofLines lines.toArray firstLine = .ok block →
      Begins interpreter [block] block (.start scope interpreter)
  | callMethod {name : Text} {arguments : List Text} {caller : Scope} {call : Call} :
      interpreter.prepare name arguments caller = .ok call →
      Begins interpreter [] call.method.block (.start call.locals interpreter.enter)

/-- Where a run starts, the block is one of those that were given or the body of a method in one of
them, and the table is filed. -/
theorem Begins.filed (h : interpreter.methods.Filed blocks) {given : List Block} {block : Block}
    {state : State} (hbegins : interpreter.Begins given block state) :
    block.Within (given ++ blocks) ∧ state.interpreter.methods.Filed (given ++ blocks) := by
  have hmore := h.mono (List.subset_append_right given blocks)
  cases hbegins with
  | feed hblock => exact ⟨.given List.mem_cons_self, hmore⟩
  | executeBlock hblock => exact ⟨.given List.mem_cons_self, hmore⟩
  | callMethod hprepare =>
      exact ⟨(MethodTable.Filed.invariant blocks).body h (prepare_get hprepare), hmore⟩

/-- Running lines, or refusing to, keeps the table filed. -/
theorem execute_block_filed (h : interpreter.methods.Filed blocks) {fuel firstLine : Nat}
    {lines : List Text} {scope : Scope} {outcome : Outcome}
    (hrun : interpreter.executeBlock fuel lines firstLine scope = some outcome) :
    outcome.interpreter.methods.Filed (blocksOf lines firstLine ++ blocks) := by
  unfold executeBlock at hrun
  unfold blocksOf
  cases hblock : Block.ofLines lines.toArray firstLine with
  | error cause =>
      rw [hblock] at hrun
      obtain rfl := Option.some.inj hrun
      exact h
  | ok block =>
      rw [hblock] at hrun
      obtain ⟨hwithin, hfiled⟩ := Begins.filed h (.executeBlock hblock)
      exact (MethodTable.Filed.invariant _).run hrun hwithin hfiled

/-- Calling a method, or refusing to, keeps the table filed. -/
theorem call_method_filed (h : interpreter.methods.Filed blocks) {fuel : Nat} {name : Text}
    {arguments : List Text} {caller : Scope} {outcome : CallOutcome}
    (hcall : interpreter.callMethod fuel name arguments caller = some outcome) :
    outcome.interpreter.methods.Filed blocks := by
  unfold callMethod at hcall
  cases hprepare : interpreter.prepare name arguments caller with
  | error error =>
      rw [hprepare] at hcall
      obtain rfl := Option.some.inj hcall
      exact h
  | ok call =>
      rw [hprepare] at hcall
      obtain ⟨callee, hrun, rfl⟩ := Option.map_eq_some_iff.mp hcall
      obtain ⟨hwithin, hfiled⟩ := Begins.filed h (.callMethod hprepare)
      exact (MethodTable.Filed.invariant blocks).run hrun hwithin hfiled

/-- Whatever its users do with an interpreter, its table is filed. -/
theorem Ran.filed (h : interpreter.Ran blocks) : interpreter.methods.Filed blocks := by
  induction h with
  | new options registry => exact ⟨List.forall_mem_nil _, List.forall_mem_nil _⟩
  | reset _ _ => exact ⟨List.forall_mem_nil _, List.forall_mem_nil _⟩
  | setStrict _ _ ih => exact ih
  | canvas _ _ ih => exact ih
  | registry _ _ ih => exact ih
  | @feed interpreter blocks _ lines _ _ hfeed ih =>
      unfold Interpreter.feed at hfeed
      obtain ⟨last, hlast, rfl⟩ := Option.map_eq_some_iff.mp hfeed
      have hready : (interpreter.ready lines.length).methods.Filed blocks := ih
      exact execute_block_filed hready hlast
  | executeBlock _ hrun ih => exact execute_block_filed ih hrun
  | callMethod _ hcall ih => exact call_method_filed ih hcall
  | perform _ hperform ih =>
      unfold Interpreter.perform at hperform
      split at hperform
      · obtain rfl := Option.some.inj hperform
        exact ih
      · obtain rfl := Option.some.inj hperform
        exact ih
      · obtain rfl := Option.some.inj hperform
        exact ih
      · obtain ⟨last, hlast, rfl⟩ := Option.map_eq_some_iff.mp hperform
        have hfiled := call_method_filed ih hlast
        split
        · exact hfiled
        · exact hfiled

/-- The method table is sound, whatever has been done with an interpreter and whenever it is looked
at: after any operations, and at every point of every run and at its end, where the machine is in
one of the blocks that were given or in the body of a method in one of them. Each method is filed
under its name in small letters, so no two names differ in letter case only. Its name and its
parameters are names, and the parameters differ from each other. Its map is the one that is built
for its body, wherever the body starts, and it is the part of the map of the block that the method
was defined in, counted from the first line of the body. -/
theorem method_table_sound (h : interpreter.Ran blocks) :
    interpreter.methods.Sound blocks ∧
    ∀ given base start, interpreter.Begins given base start →
      ∀ current place, Visits base start current place →
        current.Within (given ++ blocks) ∧ place.interpreter.methods.Sound (given ++ blocks) ∧
          ∀ outcome, Ends current place outcome →
            outcome.interpreter.methods.Sound (given ++ blocks) := by
  refine ⟨h.filed.sound, fun given base start hbegins current place hvisits ↦ ?_⟩
  obtain ⟨hbase, hstart⟩ := hbegins.filed h.filed
  have hinvariant := MethodTable.Filed.invariant (given ++ blocks)
  obtain ⟨hcurrent, hplace⟩ := hinvariant.visits hvisits hbase hstart
  exact ⟨hcurrent, hplace.sound,
    fun outcome hends ↦ (hinvariant.ends hends hcurrent hplace).sound⟩

/-- A method that is defined in the body of another one, which a loop calls, then in place of that
one by other lines, and then again by a run of the body. -/
theorem method_table_sound_of_nested_methods :
    let names (interpreter : Interpreter) := interpreter.methods.methods.entries.map fun entry ↦
      (entry.1, entry.2.name, entry.2.parameters)
    ∃ (interpreter : Interpreter) (blocks : List Block) (base : Block) (start : State)
      (outcome : Outcome), interpreter.Ran blocks ∧ interpreter.Begins [] base start ∧
      Ends base start outcome ∧
      names interpreter = [("inner".toList, "INNER".toList, ["z".toList]),
        ("outer".toList, "outer".toList, ["a".toList])] ∧
      names outcome.interpreter = [("inner".toList, "Inner".toList, ["x".toList, "y".toList]),
        ("outer".toList, "outer".toList, ["a".toList])] ∧
      interpreter.methods.Sound blocks ∧ outcome.interpreter.methods.Sound blocks := by
  intro names
  have hcomputed : ((Interpreter.new {} .standard).feed 64 ["for i = 1 to 2".toList,
      "method outer(a)".toList, "method Inner(x, y)".toList, "if true".toList, "endif".toList,
      "endmethod".toList, "call Inner(1, 2)".toList, "endmethod".toList, "call outer(1)".toList,
      "endfor".toList]).bind (fun fed ↦
        (fed.interpreter.feed 64 ["method INNER z".toList, "endmethod".toList]).bind fun last ↦
          (last.interpreter.prepare "outer".toList ["1".toList] .empty).toOption.bind fun call ↦
            (run 64 call.method.block (.start call.locals last.interpreter.enter)).map
              fun outcome ↦ [names last.interpreter, names outcome.interpreter]) =
      some [[("inner".toList, "INNER".toList, ["z".toList]),
          ("outer".toList, "outer".toList, ["a".toList])],
        [("inner".toList, "Inner".toList, ["x".toList, "y".toList]),
          ("outer".toList, "outer".toList, ["a".toList])]] := by
    decide +kernel
  obtain ⟨fed, hfed, hcomputed⟩ := Option.bind_eq_some_iff.mp hcomputed
  obtain ⟨last, hlast, hcomputed⟩ := Option.bind_eq_some_iff.mp hcomputed
  cases hprepare : last.interpreter.prepare "outer".toList ["1".toList] .empty with
  | error error =>
      rw [hprepare] at hcomputed
      cases hcomputed
  | ok call =>
      rw [hprepare] at hcomputed
      obtain ⟨outcome, hrun, hnames⟩ := Option.map_eq_some_iff.mp hcomputed
      obtain ⟨hbefore, hafter⟩ := List.cons.inj hnames
      have hran := ((Ran.new {} .standard).feed hfed).feed hlast
      have hbegins := Begins.callMethod hprepare
      have hends : Ends call.method.block (.start call.locals last.interpreter.enter) outcome :=
        ⟨64, hrun⟩
      obtain ⟨hsound, hpoints⟩ := method_table_sound hran
      obtain ⟨-, -, hend⟩ := hpoints _ _ _ hbegins _ _ .here
      exact ⟨_, _, _, _, _, hran, hbegins, hends, hbefore, (List.cons.inj hafter).1, hsound,
        hend outcome hends⟩

end Interpreter

end PenScript
