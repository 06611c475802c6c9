import Gherkin.Draft

/-!
# Reading by descent

A document can also be read element by element. What reads an element is given the header line of
the element and takes line after line, or hands a line over as the header of an element inside,
until a line comes that the element does not hold. Such a descent checks on its way what a draft has
by its type: that a header is of the kind of its element, that the place of a value is empty when
the value is put there, and that the rows of a table and their line numbers, which are kept in two
lists, go together. `Descent.document` reads a whole document and breaks off where a check fails.
-/

namespace Gherkin.Descent

/-- A place in an element for one value. -/
inductive Slot where
  | background | examples | table | argument
  deriving DecidableEq, Repr

/-- Why a descent breaks off. -/
inductive Halt where
  /-- The lines are no document, or a header is of the wrong kind. -/
  | violation (why : Violation)
  /-- A value is put where there is one already. -/
  | occupied (slot : Slot)
  /-- The rows of a table and their line numbers do not go together. -/
  | unpaired
  deriving DecidableEq, Repr

/-- Puts a value into a place, which has to be empty. -/
def Slot.put (slot : Slot) : Option α → α → Except Halt (Option α)
  | none, a => .ok (some a)
  | some _, _ => .error (.occupied slot)

/-- What a line says that is taken as a header, if it is of the kind that is expected. -/
def expect (l : Line) (expected : String) (said? : Kind → Option α) : Except Halt α :=
  match said? l.kind with
  | some a => .ok a
  | none => .error (.violation (.kindMismatch l.number expected l.kind))

/-- What a header of the one kind `own` says. -/
def only (own k : Kind) : Option Unit :=
  if k = own then some () else none

def scenario? : Kind → Option ScenarioKeyword
  | .scenario k => some k
  | _ => none

def outline? : Kind → Option OutlineKeyword
  | .outline k => some k
  | _ => none

def examples? : Kind → Option ExamplesKeyword
  | .examples k => some k
  | _ => none

/-! ## Lines that are taken -/

/-- What has been read at the beginning of lines, and the lines that are left. -/
structure Taken (ls : List Line) (α : Type) where
  value : α
  rest : List Line
  isSuffix : rest <:+ ls

namespace Taken

variable {ls ms : List Line}

/-- All lines are left. -/
def nothing (a : α) : Taken ls α :=
  ⟨a, ls, List.suffix_rfl⟩

def map (f : α → β) (t : Taken ls α) : Taken ls β :=
  ⟨f t.value, t.rest, t.isSuffix⟩

/-- What is made of the value, which may break off. -/
def andThen (t : Taken ls α) (f : α → Except Halt β) : Except Halt (Taken ls β) := do
  return ⟨← f t.value, t.rest, t.isSuffix⟩

/-- The same, of lines that end with those it was read from. -/
def within (t : Taken ls α) (h : ls <:+ ms) : Taken ms α :=
  ⟨t.value, t.rest, t.isSuffix.trans h⟩

end Taken

/-- What an element does with a line and the lines after it: it ends before the line, or it takes
the line and maybe lines after it. -/
abbrev Turn (σ : Type) :=
  σ → Line → (ls : List Line) → Except Halt (Option (Taken ls σ))

/-- Takes turns until the element ends. -/
def loop (turn : Turn σ) (s : σ) : (ls : List Line) → Except Halt (Taken ls σ)
  | [] => .ok (.nothing s)
  | l :: ls => do
    match ← turn s l ls with
    | none => return .nothing s
    | some t =>
      return (← loop turn t.value t.rest).within (t.isSuffix.trans (List.suffix_cons l ls))
termination_by ls => ls.length
decreasing_by exact Nat.lt_succ_of_le t.isSuffix.length_le

/-! ## Tables and DocStrings -/

/-- A table as it grows: the texts of its rows and their line numbers, each in a list. -/
structure Grid where
  line : Nat
  rows : List String
  rowLines : List Nat
  comments : List Comment
  deriving DecidableEq, Repr

namespace Grid

def start (line : Nat) : Grid :=
  ⟨line, [], [], []⟩

def addRow (g : Grid) (l : Line) : Grid :=
  { g with rows := g.rows ++ [l.payload], rowLines := g.rowLines ++ [l.number] }

def addComment (g : Grid) (c : Comment) : Grid :=
  { g with comments := g.comments ++ [c] }

/-- There is a row, there are as many line numbers as rows, and the table stands where its first
row does. -/
structure Paired (g : Grid) : Prop where
  nonempty : g.rows ≠ []
  length_eq : g.rowLines.length = g.rows.length
  line : g.rowLines.head? = some g.line

instance (g : Grid) : Decidable g.Paired :=
  decidable_of_iff
    (g.rows ≠ [] ∧ g.rowLines.length = g.rows.length ∧ g.rowLines.head? = some g.line)
    ⟨fun ⟨nonempty, length_eq, line⟩ => ⟨nonempty, length_eq, line⟩,
      fun h => ⟨h.nonempty, h.length_eq, h.line⟩⟩

/-- The table of the rows with their line numbers, which have to go together. -/
def table (g : Grid) : Except Halt Table :=
  match List.zipWith Row.mk g.rowLines g.rows with
  | [] => .error .unpaired
  | first :: others =>
    if g.Paired then .ok ⟨first, others, g.comments⟩ else .error .unpaired

end Grid

def gridTurn : Turn Grid
  | g, l, _ =>
    match l.kind with
    | .row => .ok (some (.nothing (g.addRow l)))
    | .comment => .ok (some (.nothing (g.addComment l.comment)))
    | _ => .ok none

/-- The table that a row begins. -/
def table (first : Line) (ls : List Line) : Except Halt (Taken ls Table) := do
  let _ ← expect first "DataTable" (only .row)
  (← loop gridTurn ((Grid.start first.number).addRow first) ls).andThen Grid.table

/-- The DocString goes on up to the next fence. -/
def docString (d : DocDraft) : (ls : List Line) → Except Halt (Taken ls DocString)
  | [] => .error (.violation (.unterminatedDocString d.line))
  | l :: ls =>
    match l.kind with
    | .fence f => .ok ⟨d.close f, ls, List.suffix_cons l ls⟩
    | _ => do return (← docString (d.add l) ls).within (List.suffix_cons l ls)

/-- The argument that a row or a fence begins. -/
def argument (first : Line) (ls : List Line) : Except Halt (Taken ls Argument) :=
  match first.kind with
  | .fence f => do return (← docString (.start f first) ls).map .docString
  | _ => do return (← table first ls).map .table

/-! ## Steps and blocks of steps -/

def stepTurn : Turn Step
  | s, l, ls =>
    match l.kind with
    | .comment => .ok (some (.nothing (s.addComment l.comment)))
    | .row | .fence _ =>
      if s.argument.isSome then
        .error (.violation (.duplicateArgument l.number l.kind s.line))
      else do
        let a ← argument l ls
        return some (← a.andThen fun a => do
          return { s with argument := ← Slot.argument.put s.argument a })
    | _ => .ok none

def step (header : Line) (ls : List Line) : Except Halt (Taken ls Step) := do
  let keyword ← expect header "a step" Kind.step?
  loop stepTurn ⟨keyword, header.number, header.payload, [], none⟩ ls

/-- A header, and the steps below it. -/
structure Block where
  header : Header
  steps : List Step
  deriving DecidableEq, Repr

/-- A turn of a block that a line of kind `own` opens. -/
def blockTurn (own : Kind) : Turn Block
  | b, l, ls =>
    match l.kind with
    | .description =>
      .ok (some (.nothing { b with header := b.header.addDescription l.description }))
    | .comment => .ok (some (.nothing { b with header := b.header.addComment l.comment }))
    | .step k =>
      if own.holds k then do
        return some ((← step l ls).map fun s => { b with steps := b.steps ++ [s] })
      else .error (.violation (l.unexpected own))
    | k => if own.endedBy k then .ok none else .error (.violation (l.unexpected own))

/-- The background, if there is a step. -/
def Block.background (b : Block) : Except Halt Background :=
  if b.steps.isEmpty then .error (.violation (.emptyBackground b.header.line))
  else .ok ⟨b.header, b.steps⟩

def Block.scenario (keyword : ScenarioKeyword) (b : Block) : Except Halt Scenario :=
  .ok ⟨keyword, b.header, b.steps⟩

def background (header : Line) (ls : List Line) : Except Halt (Taken ls Background) := do
  let _ ← expect header "Background" (only .background)
  (← loop (blockTurn .background) ⟨header.header, []⟩ ls).andThen Block.background

def scenario (header : Line) (ls : List Line) : Except Halt (Taken ls Scenario) := do
  let keyword ← expect header "Scenario or Example" scenario?
  (← loop (blockTurn (.scenario keyword)) ⟨header.header, []⟩ ls).andThen (Block.scenario keyword)

/-! ## Outlines and their examples -/

def examplesTurn : Turn Examples
  | e, l, ls =>
    match l.kind with
    | .description =>
      .ok (some (.nothing { e with header := e.header.addDescription l.description }))
    | .comment => .ok (some (.nothing { e with header := e.header.addComment l.comment }))
    | .row =>
      if e.table.isSome then
        .error (.violation (.duplicateTable l.number (.examples e.keyword) e.header.line))
      else do
        let t ← table l ls
        return some (← t.andThen fun t => do
          return { e with table := ← Slot.table.put e.table t })
    | k =>
      if (Kind.examples e.keyword).endedBy k then .ok none
      else .error (.violation (l.unexpected (.examples e.keyword)))

def examples (header : Line) (ls : List Line) : Except Halt (Taken ls Examples) := do
  let keyword ← expect header "Examples or Scenarios" examples?
  loop examplesTurn ⟨keyword, header.header, none⟩ ls

/-- An outline that may lack its examples. -/
structure OpenOutline where
  keyword : OutlineKeyword
  block : Block
  examples : Option Examples
  deriving DecidableEq, Repr

def outlineTurn : Turn OpenOutline
  | o, l, ls =>
    match l.kind with
    | .examples _ =>
      if o.examples.isSome then
        .error (.violation
          (.duplicateExamples l.number l.kind (.outline o.keyword) o.block.header.line))
      else do
        let e ← examples l ls
        return some (← e.andThen fun e => do
          return { o with examples := ← Slot.examples.put o.examples e })
    | _ => do
      return (← blockTurn (.outline o.keyword) o.block l ls).map
        fun t => t.map fun b => { o with block := b }

/-- The outline, if there are examples. -/
def OpenOutline.outline (o : OpenOutline) : Except Halt Outline :=
  match o.examples with
  | some e => .ok ⟨o.keyword, o.block.header, o.block.steps, e⟩
  | none => .error (.violation (.missingExamples o.block.header.line (.outline o.keyword)))

def outline (header : Line) (ls : List Line) : Except Halt (Taken ls Outline) := do
  let keyword ← expect header "Scenario Outline or Scenario Template" outline?
  (← loop outlineTurn ⟨keyword, ⟨header.header, []⟩, none⟩ ls).andThen OpenOutline.outline

/-! ## Rules, features and documents -/

def ruleTurn : Turn Rule
  | r, l, ls =>
    match l.kind with
    | .description =>
      .ok (some (.nothing { r with header := r.header.addDescription l.description }))
    | .comment => .ok (some (.nothing { r with header := r.header.addComment l.comment }))
    | .scenario _ => do
      return some ((← scenario l ls).map fun s => { r with scenarios := r.scenarios ++ [s] })
    | k => if Kind.rule.endedBy k then .ok none else .error (.violation (l.unexpected .rule))

def rule (header : Line) (ls : List Line) : Except Halt (Taken ls Rule) := do
  let _ ← expect header "Rule" (only .rule)
  loop ruleTurn ⟨header.header, []⟩ ls

/-- The feature with one more item. -/
def addItem (f : Feature) (i : Item) : Feature :=
  { f with items := f.items ++ [i] }

def featureTurn : Turn Feature
  | f, l, ls =>
    match l.kind with
    | .description =>
      .ok (some (.nothing { f with header := f.header.addDescription l.description }))
    | .comment => .ok (some (.nothing { f with header := f.header.addComment l.comment }))
    | .background =>
      match f.background with
      | some b => .error (.violation (.duplicateBackground l.number b.header.line))
      | none => do
        let b ← background l ls
        return some (← b.andThen fun b => do
          return { f with background := ← Slot.background.put f.background b })
    | .scenario .scenario => do
      return some ((← scenario l ls).map fun s => addItem f (.scenario s))
    | .rule => do return some ((← rule l ls).map fun r => addItem f (.rule r))
    | .outline _ => do return some ((← outline l ls).map fun o => addItem f (.outline o))
    | _ => .error (.violation (l.unexpected .feature))

def feature (header : Line) (ls : List Line) : Except Halt (Taken ls Feature) := do
  let _ ← expect header "Feature" (only .feature)
  loop featureTurn ⟨header.header, none, []⟩ ls

/-- The document, after comments that stand before its feature. -/
def documentAfter (comments : List Comment) : List Line → Except Halt Document
  | [] => .error (.violation .missingFeature)
  | l :: ls =>
    match l.kind with
    | .comment => documentAfter (comments ++ [l.comment]) ls
    | .feature => do return ⟨comments, (← feature l ls).value⟩
    | k => .error (.violation (.expectedFeature l.number k))

/-- Reads a document from its lines. -/
def document (ls : List Line) : Except Halt Document :=
  documentAfter [] ls

end Gherkin.Descent
