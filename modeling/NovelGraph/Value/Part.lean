import NovelGraph.Fault

/-! Parts of values: the items of lists and objects, the characters of texts, the parts of numbers,
and what a value tells about its kind. -/
namespace NovelGraph

inductive ValueKind where
  | null
  | bool
  | int
  | float
  | text
  | list
  | object
  /-- The kind that all others come from. -/
  | any
  /-- The kind of kinds. -/
  | kind
  | row
  | operation
deriving DecidableEq, Repr

namespace ValueKind

def ofValue : Value → ValueKind
  | .null => .null
  | .bool _ => .bool
  | .int _ => .int
  | .float _ => .float
  | .text _ => .text
  | .list _ => .list
  | .object _ => .object

def name : ValueKind → String
  | .null => "NoneType"
  | .bool => "bool"
  | .int => "int"
  | .float => "float"
  | .text => "str"
  | .list => "list"
  | .object => "dict"
  | .any => "object"
  | .kind => "type"
  | .row => "tuple"
  | .operation => "builtin_function_or_method"

def literal (k : ValueKind) : String := s!"<class '{k.name}'>"

/-- The kind that a kind comes from. -/
def base? : ValueKind → Option ValueKind
  | .any => none
  | .bool => some .int
  | _ => some .any

/-- A kind and all that it comes from. -/
def ancestry : ValueKind → List ValueKind
  | .any => [.any]
  | .bool => [.bool, .int, .any]
  | k => [k, .any]

/-- What a kind says about itself. -/
def description? : ValueKind → Option String
  | .bool =>
    some ("bool(x) -> bool\n\n" ++
      "Returns True when the argument x is true, False otherwise.\n" ++
      "The builtins True and False are the only two instances of the class bool.\n" ++
      "The class bool is a subclass of the class int, and cannot be subclassed.")
  | .int =>
    some ("int([x]) -> integer\n" ++
      "int(x, base=10) -> integer\n\n" ++
      "Convert a number or string to an integer, or return 0 if no arguments\n" ++
      "are given.  If x is a number, return x.__int__().  For floating point\n" ++
      "numbers, this truncates towards zero.\n\n" ++
      "If x is not a number or if base is given, then x must be a string,\n" ++
      "bytes, or bytearray instance representing an integer literal in the\n" ++
      "given base.  The literal can be preceded by '+' or '-' and be surrounded\n" ++
      "by whitespace.  The base defaults to 10.  Valid bases are 0 and 2-36.\n" ++
      "Base 0 means to interpret the base from the string as an integer literal.\n" ++
      ">>> int('0b100', base=0)\n" ++
      "4")
  | .float => some "Convert a string or number to a floating point number, if possible."
  | .text =>
    some ("str(object='') -> str\n" ++
      "str(bytes_or_buffer[, encoding[, errors]]) -> str\n\n" ++
      "Create a new string object from the given object. If encoding or\n" ++
      "errors is specified, then the object must expose a data buffer\n" ++
      "that will be decoded using the given encoding and error handler.\n" ++
      "Otherwise, returns the result of object.__str__() (if defined)\n" ++
      "or repr(object).\n" ++
      "encoding defaults to sys.getdefaultencoding().\n" ++
      "errors defaults to 'strict'.")
  | .list =>
    some ("Built-in mutable sequence.\n\n" ++
      "If no argument is given, the constructor creates a new empty list.\n" ++
      "The argument must be an iterable if specified.")
  | .object =>
    some ("dict() -> new empty dictionary\n" ++
      "dict(mapping) -> new dictionary initialized from a mapping object's\n" ++
      "    (key, value) pairs\n" ++
      "dict(iterable) -> new dictionary initialized as if via:\n" ++
      "    d = {}\n" ++
      "    for k, v in iterable:\n" ++
      "        d[k] = v\n" ++
      "dict(**kwargs) -> new dictionary initialized with the name=value pairs\n" ++
      "    in the keyword argument list.  For example:  dict(one=1, two=2)")
  | .any =>
    some ("The base class of the class hierarchy.\n\n" ++
      "When called, it accepts no arguments and returns a new featureless\n" ++
      "instance that has no instance attributes and cannot be given any.\n")
  | .kind =>
    some ("type(object) -> the object's type\n" ++
      "type(name, bases, dict, **kwds) -> a new type")
  | .row =>
    some ("Built-in immutable sequence.\n\n" ++
      "If no argument is given, the constructor returns an empty tuple.\n" ++
      "If iterable is specified the tuple is initialized from iterable's items.\n\n" ++
      "If the argument is a tuple, the return value is the same object.")
  | .null | .operation => none

/-- The operations that values of every kind have. -/
def commonOperations : List String :=
  ["__delattr__", "__dir__", "__eq__", "__format__", "__ge__", "__getattribute__", "__getstate__",
   "__gt__", "__hash__", "__init__", "__init_subclass__", "__le__", "__lt__", "__ne__", "__new__",
   "__reduce__", "__reduce_ex__", "__repr__", "__setattr__", "__sizeof__", "__str__",
   "__subclasshook__"]

def numberOperations : List String :=
  ["__abs__", "__add__", "__and__", "__bool__", "__ceil__", "__divmod__", "__float__", "__floor__",
   "__floordiv__", "__getnewargs__", "__index__", "__int__", "__invert__", "__lshift__", "__mod__",
   "__mul__", "__neg__", "__or__", "__pos__", "__pow__", "__radd__", "__rand__", "__rdivmod__",
   "__rfloordiv__", "__rlshift__", "__rmod__", "__rmul__", "__ror__", "__round__", "__rpow__",
   "__rrshift__", "__rshift__", "__rsub__", "__rtruediv__", "__rxor__", "__sub__", "__truediv__",
   "__trunc__", "__xor__", "as_integer_ratio", "bit_count", "bit_length", "conjugate", "from_bytes",
   "to_bytes"]

/-- The operations of a kind besides the common ones. -/
def ownOperations : ValueKind → List String
  | .null => ["__bool__"]
  | .bool | .int => numberOperations
  | .float =>
    ["__abs__", "__add__", "__bool__", "__ceil__", "__divmod__", "__float__", "__floor__",
     "__floordiv__", "__getformat__", "__getnewargs__", "__int__", "__mod__", "__mul__", "__neg__",
     "__pos__", "__pow__", "__radd__", "__rdivmod__", "__rfloordiv__", "__rmod__", "__rmul__",
     "__round__", "__rpow__", "__rsub__", "__rtruediv__", "__sub__", "__truediv__", "__trunc__",
     "as_integer_ratio", "conjugate", "fromhex", "hex", "is_integer"]
  | .text =>
    ["__add__", "__contains__", "__getitem__", "__getnewargs__", "__iter__", "__len__", "__mod__",
     "__mul__", "__rmod__", "__rmul__", "capitalize", "casefold", "center", "count", "encode",
     "endswith", "expandtabs", "find", "format", "format_map", "index", "isalnum", "isalpha",
     "isascii", "isdecimal", "isdigit", "isidentifier", "islower", "isnumeric", "isprintable",
     "isspace", "istitle", "isupper", "join", "ljust", "lower", "lstrip", "maketrans", "partition",
     "removeprefix", "removesuffix", "replace", "rfind", "rindex", "rjust", "rpartition", "rsplit",
     "rstrip", "split", "splitlines", "startswith", "strip", "swapcase", "title", "translate",
     "upper", "zfill"]
  | .list =>
    ["__add__", "__class_getitem__", "__contains__", "__delitem__", "__getitem__", "__iadd__",
     "__imul__", "__iter__", "__len__", "__mul__", "__reversed__", "__rmul__", "__setitem__",
     "append", "clear", "copy", "count", "extend", "index", "insert", "pop", "remove", "reverse",
     "sort"]
  | .object =>
    ["__class_getitem__", "__contains__", "__delitem__", "__getitem__", "__ior__", "__iter__",
     "__len__", "__or__", "__reversed__", "__ror__", "__setitem__", "clear", "copy", "fromkeys",
     "get", "items", "keys", "pop", "popitem", "setdefault", "update", "values"]
  | _ => []

def hasOperation (k : ValueKind) (name : String) : Bool :=
  k.ownOperations.contains name || commonOperations.contains name

end ValueKind

/-- What can be reached from a value by naming parts. -/
inductive Part where
  | value (v : Value)
  | kind (k : ValueKind)
  | row (ks : List ValueKind)
  | operation (of : Value) (name : String)
deriving Repr

namespace Part

def kindOf : Part → ValueKind
  | .value v => .ofValue v
  | .kind _ => .kind
  | .row _ => .row
  | .operation _ _ => .operation

def text (s : String) : Part := .value (.text s)

def textOr (s : Option String) : Part := .value ((s.map .text).getD .null)

/-- Rows of one kind have a comma behind it. -/
def literal : Part → String
  | .value v => v.literal
  | .kind k => k.literal
  | .row [k] => "(" ++ k.literal ++ ",)"
  | .row ks => "(" ++ ", ".intercalate (ks.map (·.literal)) ++ ")"
  | .operation v name => s!"<built-in method {name} of {v.kindName} object>"

def display : Part → String
  | .value v => v.display
  | p => p.literal

def noPart {α : Type} (p : Part) (name : String) : Except Fault α :=
  .error (.noPart p.kindOf.name name)

/-- The parts of numbers. Those of an integer are integers. -/
def ofNumber? : Value.Number → String → Option Value
  | .int n, "real" | .int n, "numerator" => some (.int n)
  | .int _, "imag" => some (.int 0)
  | .int _, "denominator" => some (.int 1)
  | .double x, "real" => some (.float x)
  | .double _, "imag" => some (.float .zero)
  | _, _ => none

def ofValue (v : Value) (name : String) : Except Fault Part :=
  match v.number?.bind (ofNumber? · name) with
  | some w => .ok (.value w)
  | none =>
    if name == "__hash__" && !v.isKey then .ok (.value .null)
    else if (ValueKind.ofValue v).hasOperation name then .ok (.operation v name)
    else (Part.value v).noPart name

def ofKind (k : ValueKind) : String → Except Fault Part
  | "__name__" | "__qualname__" => .ok (text k.name)
  | "__module__" => .ok (text "builtins")
  | "__base__" => .ok (match k.base? with
    | some b => .kind b
    | none => .value .null)
  | "__bases__" => .ok (.row k.base?.toList)
  | "__mro__" => .ok (.row k.ancestry)
  | name => (Part.kind k).noPart name

/-- The part of a given name. -/
def named (p : Part) (name : String) : Except Fault Part :=
  match p, name with
  | p, "__class__" => .ok (.kind p.kindOf)
  | .kind k, "__doc__" => .ok (textOr k.description?)
  | .operation v _, "__self__" => .ok (.value v)
  | .operation _ n, "__name__" => .ok (text n)
  | .operation _ n, name => (Part.operation .null n).noPart name
  | p, "__doc__" => .ok (textOr p.kindOf.description?)
  | .value v, name => ofValue v name
  | .kind k, name => ofKind k name
  | .row ks, name => (Part.row ks).noPart name

def itemAt {α : Type} (items : List α) (n : Nat) (f : α → Part) : Except Fault Part :=
  match items[n]? with
  | some a => .ok (f a)
  | none => .error (.outOfRange n)

/-- The item with a number. The members of objects have names and no numbers. -/
def item (p : Part) (n : Nat) : Except Fault Part :=
  match p with
  | .value (.text s) => itemAt s.toList n fun c => text (String.singleton c)
  | .value (.list items) => itemAt items n .value
  | .value (.object _) => .error (.missing (.int n))
  | .row ks => itemAt ks n .kind
  | p => .error (.wrongKind s!"'{p.kindOf.name}' object is not subscriptable")

/-- The member of a given name. -/
def member (p : Part) (name : String) : Except Fault Part :=
  match p with
  | .value v => do pure (.value (← v.field name))
  | p => .error (.wrongKind s!"'{p.kindOf.name}' object is not subscriptable")

end Part
end NovelGraph
