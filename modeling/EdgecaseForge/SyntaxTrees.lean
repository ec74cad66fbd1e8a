import EdgecaseForge.TextCore

namespace EdgecaseForge

open Text

/-- What the syntax library says of a node: its line, its class, and its source text if it has one. -/
structure Origin where
  line : Nat
  type : Str
  text : Option Str

/-- Whether a target is read, assigned to or deleted. -/
inductive ExprContext
  | load
  | store
  | del
  deriving DecidableEq

/-- A syntax tree with the parts that the checks look at. -/
inductive Ast
  | function (origin : Origin) (name : Str) (parameters : List Str) (decorators others : List Ast)
  | call (origin : Origin) (func : Ast) (args keywords : List Ast)
  | attribute (origin : Origin) (ctx : ExprContext) (attr : Str) (value : Ast)
  | subscript (origin : Origin) (ctx : ExprContext) (value slice : Ast)
  | name (origin : Origin) (id : Str)
  | constant (origin : Origin) (text : Option Str)
  | assign (origin : Origin) (targets : List Ast) (value : Ast)
  | assert (origin : Origin) (test : Ast) (message : List Ast)
  | ifStatement (origin : Origin) (test : Ast) (others : List Ast)
  | raise (origin : Origin) (others : List Ast)
  | withStatement (origin : Origin) (contexts others : List Ast)
  | dict (origin : Origin) (keyTexts : List (Option Str)) (keys values : List Ast)
  | other (origin : Origin) (children : List Ast)

namespace Ast

def origin : Ast → Origin
  | .function o _ _ _ _ | .call o _ _ _ | .attribute o _ _ _ | .subscript o _ _ _ | .name o _
  | .constant o _ | .assign o _ _ | .assert o _ _ | .ifStatement o _ _ | .raise o _
  | .withStatement o _ _ | .dict o _ _ _ | .other o _ => o

def line (node : Ast) : Nat :=
  node.origin.line

mutual

/-- The nodes of `ast.walk`, in another order. -/
def walk : Ast → List Ast
  | .function o ident parameters decorators others =>
    .function o ident parameters decorators others :: (walkAll decorators ++ walkAll others)
  | .call o func args keywords =>
    .call o func args keywords :: (walk func ++ walkAll args ++ walkAll keywords)
  | .attribute o ctx attr value => .attribute o ctx attr value :: walk value
  | .subscript o ctx value slice => .subscript o ctx value slice :: (walk value ++ walk slice)
  | .name o id => [.name o id]
  | .constant o text => [.constant o text]
  | .assign o targets value => .assign o targets value :: (walkAll targets ++ walk value)
  | .assert o test message => .assert o test message :: (walk test ++ walkAll message)
  | .ifStatement o test others => .ifStatement o test others :: (walk test ++ walkAll others)
  | .raise o others => .raise o others :: walkAll others
  | .withStatement o contexts others =>
    .withStatement o contexts others :: (walkAll contexts ++ walkAll others)
  | .dict o keyTexts keys values => .dict o keyTexts keys values :: (walkAll keys ++ walkAll values)
  | .other o children => .other o children :: walkAll children

def walkAll : List Ast → List Ast
  | [] => []
  | node :: nodes => walk node ++ walkAll nodes

end

end Ast

/-- The Python library as the checks use it: `ast.parse` up to the statements of the module, with
the class of a syntax error, and `str.lower`. -/
structure PythonSource where
  parse : Str → Except Str (List Ast)
  lower : Str → Str

end EdgecaseForge
