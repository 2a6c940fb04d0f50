import LintWatch.Json.Token

/-!
# JSON parse trees

A parse tree is what a text says before anything is judged: members keep their order and their
repetitions, and a scalar may have no value. `Builder` reads tokens one at a time and keeps the
brackets that are still open; once it has finished, `step_finished` says that no token can
follow. `ofTokens?` succeeds exactly when the tokens make up one value.
-/

namespace LintWatch.Json

/-- What a JSON text says. -/
inductive Tree where
  | scalar (value : Scalar)
  | array (items : List Tree)
  | object (members : List (Option String × Tree))
  deriving Repr, Inhabited

/-- An open bracket with what stands in it so far, last first. -/
inductive Frame where
  | array (done : List Tree)
  | object (done : List (Option String × Tree)) (name : Option String)
  deriving Repr

/-- What may come next. -/
inductive Expected where
  | value
  | valueOrEnd
  | name (done : List (Option String × Tree))
  | nameOrEnd
  | colon (done : List (Option String × Tree)) (name : Option String)
  | separator
  | finished (tree : Tree)
  deriving Repr

/-- The open brackets, innermost first, and what may come next. -/
structure Builder where
  frames : List Frame
  expected : Expected
  deriving Repr

namespace Builder

/-- Nothing read yet. -/
def start : Builder :=
  ⟨[], .value⟩

/-- The builder after a whole value. -/
def complete (tree : Tree) : List Frame → Builder
  | [] => ⟨[], .finished tree⟩
  | .array done :: frames => ⟨.array (tree :: done) :: frames, .separator⟩
  | .object done name :: frames => ⟨.object ((name, tree) :: done) none :: frames, .separator⟩

/-- Reads a token where a value must stand. -/
def stepValue (frames : List Frame) : Token → Option Builder
  | .scalar s => some (complete (.scalar s) frames)
  | .arrayStart => some ⟨.array [] :: frames, .valueOrEnd⟩
  | .objectStart => some ⟨frames, .nameOrEnd⟩
  | _ => none

/-- Reads one token. -/
def step (b : Builder) (t : Token) : Option Builder :=
  match b.expected, t, b.frames with
  | .value, t, frames => stepValue frames t
  | .valueOrEnd, .arrayEnd, .array done :: frames => some (complete (.array done.reverse) frames)
  | .valueOrEnd, t, frames => stepValue frames t
  | .name done, .scalar (.text s), frames => some ⟨frames, .colon done s⟩
  | .nameOrEnd, .scalar (.text s), frames => some ⟨frames, .colon [] s⟩
  | .nameOrEnd, .objectEnd, frames => some (complete (.object []) frames)
  | .colon done s, .colon, frames => some ⟨.object done s :: frames, .value⟩
  | .separator, .comma, .array done :: frames => some ⟨.array done :: frames, .value⟩
  | .separator, .arrayEnd, .array done :: frames => some (complete (.array done.reverse) frames)
  | .separator, .comma, .object done _ :: frames => some ⟨frames, .name done⟩
  | .separator, .objectEnd, .object done _ :: frames =>
    some (complete (.object done.reverse) frames)
  | _, _, _ => none

/-- Reads tokens until one does not fit. -/
def run (b : Builder) : List Token → Option Builder
  | [] => some b
  | t :: ts =>
    match b.step t with
    | some b => b.run ts
    | none => none

/-- The tree, when a whole value has been read. -/
def result? (b : Builder) : Option Tree :=
  match b.expected with
  | .finished tree => some tree
  | _ => none

/-- After a whole value nothing fits. -/
theorem step_finished {b : Builder} {tree : Tree} (h : b.expected = .finished tree)
    (t : Token) : b.step t = none := by
  simp [step, h]

/-- Reading tokens in two parts is reading them all. -/
theorem run_append (b : Builder) (ts us : List Token) :
    b.run (ts ++ us) = (b.run ts).bind (·.run us) := by
  induction ts generalizing b with
  | nil => rfl
  | cons t ts ih =>
    simp only [List.cons_append, run]
    cases b.step t with
    | none => rfl
    | some b => exact ih b

end Builder

/-- The value of a scalar. -/
def ofScalar? : Scalar → Option Json
  | .null => some .null
  | .bool b => some (.bool b)
  | .number n => n.map .num
  | .text s => s.map .str

namespace Tree

/-- The tree of tokens that make up one value. -/
def ofTokens? (tokens : List Token) : Option Tree :=
  (Builder.start.run tokens).bind (·.result?)

/-- The tree of a text that is one value with blanks around it. -/
def ofBytes? (bytes : List UInt8) : Option Tree :=
  (tokens? bytes).bind ofTokens?

end Tree

end LintWatch.Json
