import TemplateExpr.Value.Member

/-!
# The guard

An expression may only ever see the data it is handed. The guard closes the ways out that such data
can hold: names that reach into the machinery of objects, records that look like the global object
or like an element of a user interface, functions that build functions from text, and functions
that call others on behalf of their caller.
-/

namespace TemplateExpr

inductive SecurityError where
  | blockedMember (name : String)
  | globalObject
  | element
  | functionConstructor
  | callForwarder
deriving DecidableEq

def SecurityError.message : SecurityError → String
  | .blockedMember name => "Referencing '" ++ name ++ "' is disallowed in expressions"
  | .globalObject => "Referencing the global object in expressions is disallowed"
  | .element => "Referencing UI elements in expressions is disallowed"
  | .functionConstructor => "Referencing the function constructor in expressions is disallowed"
  | .callForwarder => "Calling call/apply/bind style forwarders in expressions is disallowed"

namespace Guard

def blockedMembers : List String :=
  ["constructor", "__proto__", "__defineGetter__", "__defineSetter__", "__lookupGetter__",
    "__lookupSetter__"]

/-- A record with entries of all these names is taken for the global object. -/
def globalMarkers : List String := ["window", "document", "location"]

/-- A record with `children` and entries of all these names is taken for a wrapped element. -/
def wrapperMarkers : List String := ["prop", "attr", "find"]

def looksLikeGlobal (value : Value) : Bool := globalMarkers.all (value.hasKey ·)

/-- Whether a value is taken for an element: it has children, and a node name or what wrappers of
elements have. -/
def looksLikeElement (value : Value) : Bool :=
  value.hasKey "children" &&
    (value.hasKey "nodeName" || wrapperMarkers.all (value.hasKey ·))

def checkName (name : String) : Except SecurityError Unit :=
  if name ∈ blockedMembers then .error (.blockedMember name) else .ok ()

/-- Refuses values that must not be read from or handed around. -/
def checkObject (value : Value) : Except SecurityError Unit :=
  match value with
  | .function f => if f.kind = .constructor then .error .functionConstructor else .ok ()
  | .record _ =>
    if looksLikeGlobal value then .error .globalObject
    else if looksLikeElement value then .error .element
    else .ok ()
  | _ => .ok ()

/-- Refuses functions that must not be called. Other values are left to the call itself. -/
def checkCallee (value : Value) : Except SecurityError Unit :=
  match value with
  | .function f =>
    match f.kind with
    | .plain => .ok ()
    | .constructor => .error .functionConstructor
    | .callForwarder => .error .callForwarder
  | _ => .ok ()

end Guard

end TemplateExpr
