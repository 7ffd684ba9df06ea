/-!
# Types of the database

The types that arguments and columns have in the database. A few of them have a meaning here; of
the others only the name and the number are known.
-/

set_option autoImplicit false

namespace SqlTemplate

/-- A type of the database. A `vector` is an array whose positions count from zero. -/
inductive ColumnType
  | bool
  | bytea
  | name
  | int8
  | int2
  | int4
  | text
  | json
  | float4
  | float8
  | unknown
  | bpchar
  | varchar
  | timestamptz
  | jsonb
  | other (label : String) (number : Nat)
  | array (item : ColumnType)
  | vector (label : String) (number : Nat) (item : ColumnType)
deriving Repr, DecidableEq, Inhabited

namespace ColumnType

/-- The name of a type. -/
def label : ColumnType → String
  | .bool => "bool"
  | .bytea => "bytea"
  | .name => "name"
  | .int8 => "int8"
  | .int2 => "int2"
  | .int4 => "int4"
  | .text => "text"
  | .json => "json"
  | .float4 => "float4"
  | .float8 => "float8"
  | .unknown => "unknown"
  | .bpchar => "bpchar"
  | .varchar => "varchar"
  | .timestamptz => "timestamptz"
  | .jsonb => "jsonb"
  | .other label _ => label
  | .array item => "_" ++ item.label
  | .vector label _ _ => label

/-- The number of a type that can be the item of an array. -/
def number : ColumnType → Nat
  | .bool => 16
  | .bytea => 17
  | .name => 19
  | .int8 => 20
  | .int2 => 21
  | .int4 => 23
  | .text => 25
  | .json => 114
  | .float4 => 700
  | .float8 => 701
  | .unknown => 705
  | .bpchar => 1042
  | .varchar => 1043
  | .timestamptz => 1184
  | .jsonb => 3802
  | .other _ number => number
  | .array _ => 0
  | .vector _ number _ => number

/-- Types that have a meaning here. -/
def known : List ColumnType :=
  [.bool, .bytea, .name, .int8, .int2, .int4, .text, .json, .float4, .float8, .unknown, .bpchar,
    .varchar, .timestamptz, .jsonb]

/-- The object number type. -/
def oid : ColumnType := .other "oid" 26

/-- Other types of which there are arrays. -/
def others : List ColumnType :=
  [.other "char" 18, .vector "int2vector" 22 .int2, .other "regproc" 24, oid, .other "tid" 27,
    .other "xid" 28, .other "cid" 29, .vector "oidvector" 30 oid, .other "xml" 142,
    .other "point" 600, .other "lseg" 601, .other "path" 602, .other "box" 603,
    .other "polygon" 604, .other "line" 628, .other "cidr" 650, .other "circle" 718,
    .other "macaddr8" 774, .other "money" 790, .other "macaddr" 829, .other "inet" 869,
    .other "aclitem" 1033, .other "date" 1082, .other "time" 1083, .other "timestamp" 1114,
    .other "interval" 1186, .other "timetz" 1266, .other "bit" 1560, .other "varbit" 1562,
    .other "numeric" 1700, .other "refcursor" 1790, .other "regprocedure" 2202,
    .other "regoper" 2203, .other "regoperator" 2204, .other "regclass" 2205,
    .other "regtype" 2206, .other "uuid" 2950, .other "txid_snapshot" 2970,
    .other "pg_lsn" 3220, .other "tsvector" 3614, .other "tsquery" 3615,
    .other "gtsvector" 3642, .other "regconfig" 3734, .other "regdictionary" 3769,
    .other "int4range" 3904, .other "numrange" 3906, .other "tsrange" 3908,
    .other "tstzrange" 3910, .other "daterange" 3912, .other "int8range" 3926,
    .other "jsonpath" 4072, .other "regnamespace" 4089, .other "regrole" 4096,
    .other "regcollation" 4191, .other "int4multirange" 4451, .other "nummultirange" 4532,
    .other "tsmultirange" 4533, .other "tstzmultirange" 4534, .other "datemultirange" 4535,
    .other "int8multirange" 4536, .other "pg_snapshot" 5038, .other "xid8" 5069]

/-- The type of a name among those that can be items of arrays. -/
def item? (label : String) : Option ColumnType :=
  (known ++ others).find? fun t => t.label = label

/-- The type of a name. A name that is not listed is that of a type without meaning here. -/
def ofLabel (label : String) : ColumnType :=
  match item? label with
  | some t => t
  | none =>
    match label.toList with
    | '_' :: rest => ((item? (String.ofList rest)).map .array).getD (.other label 0)
    | _ => .other label 0

/-- Whether the type is one of documents. -/
def isDocument (t : ColumnType) : Bool :=
  t = .json || t = .jsonb

/-- Whether texts are of the type. -/
def isText (t : ColumnType) : Bool :=
  t = .varchar || t = .text || t = .bpchar || t = .name || t = .unknown

end ColumnType

end SqlTemplate
