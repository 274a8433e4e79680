import Verdict.Json
import Verdict.Operator
import Verdict.Text.Shown

/-!
# Errors

Everything that can go wrong is named by its cause: a text that is not JSON, a
value of another type than wanted, a condition or a rule that is not well
formed, a reference that leads nowhere or in a circle, or a file that cannot be
read.

Each cause has one message, and each error has the name of its kind.
-/

namespace Verdict

/-- What a text ended in the middle of. -/
inductive Unfinished where
  | value
  | object
  | list
  | string
  deriving DecidableEq

/-- What keeps a text from being JSON. -/
inductive TextFault where
  | unfinished (construct : Unfinished)
  | expectedValue
  | expectedLiteral
  | expectedColon
  | expectedCommaOrBrace
  | expectedCommaOrBracket
  | keyNotString
  | trailingComma
  | trailingCharacters
  | invalidNumber
  | numberOutOfRange
  | invalidEscape
  | surrogateWithoutPair
  | surrogateOutOfPlace
  | controlCharacter
  | tooDeep
  deriving DecidableEq

/-- What was found where something else was wanted. -/
inductive Found where
  | null
  | boolean (value : Bool)
  | number (value : Number)
  | string (text : String)
  | sequence
  | map
  deriving DecidableEq

/-- Why a condition is not well formed. -/
inductive ConditionFault where
  | noShape
  | severalShapes
  | negatedGroup
  | unnamedReference
  | incompleteLeaf
  deriving DecidableEq

/-- Why a rule is not well formed. -/
inductive RuleFault where
  | emptyConditions (rule : String)
  | nothingToDecide (rule : String)
  | conditionsAndDecisions (rule : String)
  | noEvent (rule : String)
  | unnamed
  deriving DecidableEq

/-- Why a text or a value does not decode to what is wanted. -/
inductive DecodeFault where
  | text (fault : TextFault)
  | wrongType (found : Found) (wanted : String)
  | missingField (name : String)
  | duplicateField (name : String)
  | wrongLength (length : Nat) (wanted : String)
  | unknownName (name : String) (known : List String)
  | severalKeys
  | condition (fault : ConditionFault)
  deriving DecidableEq

/-- The three categories of decoding faults: the text is not JSON, the text ends too
early, or its data are not those wanted. -/
inductive DecodeFault.Category where
  | malformed
  | unfinished
  | data
  deriving DecidableEq

/-- Operands that an operation cannot work on. -/
inductive Mismatch where
  | incomparable (operator : Operator) (expected actual : Kind)
  | notList (operator : Operator) (actual : Kind)
  | notFacts (actual : Kind)
  deriving DecidableEq

/-- Why a file cannot be read as text. -/
inductive FileFault where
  | notFound
  | notDirectory
  | isDirectory
  | notText
  | nameTooLong
  | nulInName
  | other (text : String)
  deriving DecidableEq

/-- What can go wrong with rules and facts. -/
inductive Error where
  | invalidRule (fault : RuleFault)
  | invalidCondition (fault : ConditionFault)
  | unknownOperator (name : String)
  | pathNotFound (fact path : String)
  | ruleNotFound (name : String)
  | unknownRule (name : String)
  | duplicateRule (name : String)
  | typeMismatch (mismatch : Mismatch)
  | circularReference (chain : List String)
  | depthExceeded (depth limit : Nat)
  | noTargetRule
  | file (path : String) (fault : FileFault)
  | json (fault : DecodeFault)
  deriving DecidableEq

/-- The words for what a text ended in. -/
def Unfinished.message : Unfinished → String
  | .value => "EOF while parsing a value"
  | .object => "EOF while parsing an object"
  | .list => "EOF while parsing a list"
  | .string => "EOF while parsing a string"

/-- The words for a fault of a text. -/
def TextFault.message : TextFault → String
  | .unfinished construct => construct.message
  | .expectedValue => "expected value"
  | .expectedLiteral => "expected ident"
  | .expectedColon => "expected `:`"
  | .expectedCommaOrBrace => "expected `,` or `\x7d`"
  | .expectedCommaOrBracket => "expected `,` or `]`"
  | .keyNotString => "key must be a string"
  | .trailingComma => "trailing comma"
  | .trailingCharacters => "trailing characters"
  | .invalidNumber => "invalid number"
  | .numberOutOfRange => "number out of range"
  | .invalidEscape => "invalid escape"
  | .surrogateWithoutPair => "unexpected end of hex escape"
  | .surrogateOutOfPlace => "lone leading surrogate in hex escape"
  | .controlCharacter => "control character (\\u0000-\\u001F) found while parsing a string"
  | .tooDeep => "recursion limit exceeded"

/-- What a JSON value is found as. -/
def Found.ofJson : Json → Found
  | .null => .null
  | .boolean value => .boolean value
  | .number value => .number value
  | .string text => .string text
  | .array _ => .sequence
  | .object _ => .map

/-- The words for a number that was found. -/
def Found.numberMessage (number : Number) : String :=
  match number with
  | .integer _ _ => "integer `" ++ number.text ++ "`"
  | .double _ => "floating point `" ++ number.text ++ "`"

/-- The words for what was found. -/
def Found.message : Found → String
  | .null => "null"
  | .boolean value => "boolean `" ++ (if value then "true" else "false") ++ "`"
  | .number value => numberMessage value
  | .string text => "string " ++ Text.shown text
  | .sequence => "sequence"
  | .map => "map"

/-- The words for a fault of a condition. -/
def ConditionFault.message : ConditionFault → String
  | .noShape => "条件节点缺少 all / any / not / condition / fact"
  | .severalShapes => "条件节点只能包含 all / any / not / condition / 叶子条件中的一种"
  | .negatedGroup => "not 的子节点必须是叶子条件或规则引用"
  | .unnamedReference => "condition 引用的规则名称不能为空"
  | .incompleteLeaf => "叶子条件必须包含 fact 和 operator"

/-- The words for a fault of a rule. -/
def RuleFault.message : RuleFault → String
  | .emptyConditions rule => "规则 '" ++ rule ++ "' 的 conditions 为空"
  | .nothingToDecide rule => "规则 '" ++ rule ++ "' 必须包含 conditions 或 decisions"
  | .conditionsAndDecisions rule => "规则 '" ++ rule ++ "' 不能同时包含 conditions 和 decisions"
  | .noEvent rule => "规则 '" ++ rule ++ "' 缺少成功事件"
  | .unnamed => "规则名称不能为空"

/-- The words for a condition that is not well formed, wherever it is reported. -/
def ConditionFault.report (fault : ConditionFault) : String :=
  "无效的条件: " ++ fault.message

/-- The words for a decoding fault. -/
def DecodeFault.message : DecodeFault → String
  | .text fault => fault.message
  | .wrongType found wanted => "invalid type: " ++ found.message ++ ", expected " ++ wanted
  | .missingField name => "missing field `" ++ name ++ "`"
  | .duplicateField name => "duplicate field `" ++ name ++ "`"
  | .wrongLength length wanted => "invalid length " ++ toString length ++ ", expected " ++ wanted
  | .unknownName name known =>
    "unknown variant `" ++ name ++ "`, expected one of " ++
      String.intercalate ", " (known.map fun other => "`" ++ other ++ "`")
  | .severalKeys => "invalid value: map, expected map with a single key"
  | .condition fault => fault.report

/-- The category of a decoding fault. -/
def DecodeFault.category : DecodeFault → DecodeFault.Category
  | .text (.unfinished _) => .unfinished
  | .text _ => .malformed
  | _ => .data

/-- The words for operands that do not fit. -/
def Mismatch.message : Mismatch → String
  | .incomparable operator expected actual =>
    operator.name ++ " 期望 与 " ++ expected.name ++ " 可比较的值, 实际 " ++ actual.name
  | .notList operator actual => operator.name ++ " 期望 array, 实际 " ++ actual.name
  | .notFacts actual => "facts 期望 object, 实际 " ++ actual.name

/-- The words for a file that cannot be read. -/
def FileFault.message : FileFault → String
  | .notFound => "No such file or directory (os error 2)"
  | .notDirectory => "Not a directory (os error 20)"
  | .isDirectory => "Is a directory (os error 21)"
  | .notText => "stream did not contain valid UTF-8"
  | .nameTooLong => "File name too long (os error 36)"
  | .nulInName => "file name contained an unexpected NUL byte"
  | .other text => text

namespace Error

/-- The name of the kind of an error. -/
def kind : Error → String
  | .invalidRule _ => "InvalidRuleDefinition"
  | .invalidCondition _ => "InvalidCondition"
  | .unknownOperator _ => "UnknownOperator"
  | .pathNotFound _ _ => "PathNotFound"
  | .ruleNotFound _ => "RuleNotFound"
  | .unknownRule _ => "UnknownRule"
  | .duplicateRule _ => "DuplicateRule"
  | .typeMismatch _ => "TypeMismatch"
  | .circularReference _ => "CircularReference"
  | .depthExceeded _ _ => "DepthExceeded"
  | .noTargetRule => "NoTargetRule"
  | .file _ _ => "Io"
  | .json _ => "JsonError"

/-- The message of an error. -/
def message : Error → String
  | .invalidRule fault => "无效的规则定义: " ++ fault.message
  | .invalidCondition fault => fault.report
  | .unknownOperator name => "未知的操作符: " ++ name
  | .pathNotFound fact path => "路径 '" ++ path ++ "' 在事实 '" ++ fact ++ "' 中不存在"
  | .ruleNotFound name => "规则未找到: " ++ name
  | .unknownRule name => "依赖规则未找到: " ++ name
  | .duplicateRule name => "规则名称重复: " ++ name
  | .typeMismatch mismatch => "类型不匹配: " ++ mismatch.message
  | .circularReference chain => "检测到循环引用: " ++ String.intercalate " -> " chain
  | .depthExceeded depth limit =>
    "规则引用深度超限: 当前 " ++ toString depth ++ ", 最大 " ++ toString limit
  | .noTargetRule => "未设置目标规则"
  | .file path fault => "读取文件失败 '" ++ path ++ "': " ++ fault.message
  | .json fault => "JSON 序列化错误: " ++ fault.message

/-- The message of an error, followed by that of the fault behind it, if there is one. -/
def fullMessage (error : Error) : String :=
  match error with
  | .file _ fault => error.message ++ ": " ++ fault.message
  | .json fault => error.message ++ ": " ++ fault.message
  | _ => error.message

end Error

end Verdict
