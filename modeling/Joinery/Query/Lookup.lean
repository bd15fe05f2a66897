import Joinery.Query.Directory
import Joinery.Text.Dotted

/-!
Contract: looking names up in contexts.

A name stands for a column if the context's model has one of that name, and
else for an association, so a column hides an association of the same name;
`association` sees only associations and `column` only columns. A dotted
path follows associations up to its last segment, which is any member.
Resolving a name is logged, following an association is not.

Owns: resolution of single names and of dotted paths.

Does not own: the models themselves, which a directory answers for.
-/

namespace Joinery.Query.Context

/-- The member that a name stands for, if any. -/
def resolve (directory : Directory) (context : Context Term) (name : String) :
    Logged (Option (Member Term)) :=
  if directory.hasColumn context.scope name then
    ⟨some (.column ⟨context, name⟩), [.columnResolved context.model name]⟩
  else
    match directory.link? context.scope name with
    | some link => ⟨some (.chain (context.follow link)), [.associationResolved context.model name]⟩
    | none => .quiet none

/-- The member that a name stands for, or the error that there is none. -/
def get (directory : Directory) (context : Context Term) (name : String) :
    Logged (Except Error (Member Term)) :=
  let found := resolve directory context name
  match found.value with
  | some member => ⟨.ok member, found.events⟩
  | none => ⟨.error (.columnNotFound context.model name), found.events⟩

/-- Looks a name up that is written as a call. Names take no arguments. -/
def call (directory : Directory) (context : Context Term) (name : String)
    (args : List Term) : Logged (Except Error (Member Term)) :=
  if args.isEmpty then get directory context name
  else .quiet (.error (.argumentsGiven context.model name args.length))

/-- The column of a given name. -/
def column (directory : Directory) (context : Context Term) (name : String) :
    Except Error (Column Term) :=
  if directory.hasColumn context.scope name then .ok ⟨context, name⟩
  else .error (.columnNotFound context.model name)

/-- The chain along the association of a given name. -/
def association (directory : Directory) (context : Context Term) (name : String) :
    Except Error (Chain Term) :=
  match directory.link? context.scope name with
  | some link => .ok (context.follow link)
  | none => .error (.associationNotFound context.model name)

/-- The context reached by following associations one after the other. -/
def followAll (directory : Directory) (context : Context Term) :
    List String → Except Error (Context Term)
  | [] => .ok context
  | name :: others => do
      let chain ← association directory context name
      followAll directory (.chain chain) others

/-- The member at the end of a dotted path. -/
def path (directory : Directory) (context : Context Term) (dotted : String) :
    Logged (Except Error (Member Term)) :=
  let name := Text.DottedName.ofString dotted
  match followAll directory context name.hops with
  | .ok reached => get directory reached name.last
  | .error error => .quiet (.error error)

/-- The predicate that a registered sifter builds for the context. -/
def sift (directory : Directory) (context : Context Term) (name : String)
    (args : List Value) : Logged (Except Error Term) :=
  match directory.sifter? context.scope name with
  | some sifter => sifter context args
  | none => .quiet (.error (.sifterNotFound context.model name))

end Joinery.Query.Context
