import CodeAtlas.Grammar.Rule
import CodeAtlas.Python.Token

/-!
The grammar of Python, both major versions at once.

It is laxer than an interpreter: it knows nothing of what may stand in which
place beyond the shape of the text (`return` outside a function is fine). Rules
whose name starts with an underscore only group, as do those listed under
`grouping`; every other rule is a kind of node.
-/
namespace CodeAtlas.Python

open CodeAtlas.Grammar
open CodeAtlas.Grammar.Body (sequence oneOf opt many sepBy1)

/-! Precedence of operators: a higher level binds closer. -/
namespace Level

def disjunction : Int := 10
def conjunction : Int := 11
def negation : Int := 12
def compare : Int := 13
def bitOr : Int := 14
def bitAnd : Int := 15
def bitXor : Int := 16
def shift : Int := 17
def plus : Int := 18
def times : Int := 19
def unary : Int := 20
def power : Int := 21
def call : Int := 22

end Level

abbrev RuleBody := Body Token

def word (text : String) : RuleBody := .token (.word text)

/-- A punctuation mark or operator. -/
def mark (text : String) : RuleBody := .token (.mark text)

def commaSep1 (b : RuleBody) : RuleBody := sepBy1 b (mark ",")

/-- A body that neither groups to the left nor to the right. -/
def prec (level : Int) (b : RuleBody) : RuleBody := .prec level none b

def precLeft (level : Int) (b : RuleBody) : RuleBody := .prec level (some .left) b

def precRight (level : Int) (b : RuleBody) : RuleBody := .prec level (some .right) b

/-- Modules and statements that fit on one line. -/
def simpleStatementRules : List (String × RuleBody) := [
  ("module", many (.rule "_statement")),
  ("_statement", oneOf [.rule "_simple_statements", .rule "_compound_statement"]),
  ("_simple_statements",
    sequence [sepBy1 (.rule "_simple_statement") (mark ";"), opt (mark ";"), .token .newline]),
  ("_simple_statement",
    oneOf [.rule "future_import_statement", .rule "import_statement", .rule "import_from_statement",
      .rule "print_statement", .rule "assert_statement", .rule "expression_statement",
      .rule "return_statement", .rule "delete_statement", .rule "raise_statement",
      .rule "pass_statement", .rule "break_statement", .rule "continue_statement",
      .rule "global_statement", .rule "nonlocal_statement", .rule "exec_statement",
      .rule "type_alias_statement"]),
  ("import_statement", sequence [word "import", .rule "_import_list"]),
  ("import_prefix", .many1 (mark ".")),
  ("relative_import", sequence [.rule "import_prefix", opt (.rule "dotted_name")]),
  ("future_import_statement",
    sequence [word "from", word "__future__", word "import",
      oneOf [.rule "_import_list", sequence [mark "(", .rule "_import_list", mark ")"]]]),
  ("import_from_statement",
    sequence [word "from",
      .field "module_name" (oneOf [.rule "relative_import", .rule "dotted_name"]), word "import",
      oneOf [.rule "wildcard_import", .rule "_import_list",
        sequence [mark "(", .rule "_import_list", mark ")"]]]),
  ("_import_list",
    sequence [commaSep1 (.field "name" (oneOf [.rule "dotted_name", .rule "aliased_import"])),
      opt (mark ",")]),
  ("aliased_import",
    sequence [.field "name" (.rule "dotted_name"), word "as", .field "alias" (.token .identifier)]),
  ("wildcard_import", mark "*"),
  ("print_statement",
    oneOf [prec 1 (sequence [word "print", .rule "chevron",
        many (sequence [mark ",", .field "argument" (.rule "expression")]), opt (mark ",")]),
      prec (-3) (.weight (-1) (sequence [word "print",
        commaSep1 (.field "argument" (.rule "expression")), opt (mark ",")]))]),
  ("chevron", sequence [mark ">>", .rule "expression"]),
  ("assert_statement", sequence [word "assert", commaSep1 (.rule "expression")]),
  ("expression_statement",
    oneOf [.rule "expression", sequence [commaSep1 (.rule "expression"), opt (mark ",")],
      .rule "assignment", .rule "augmented_assignment", .rule "yield"]),
  ("named_expression",
    sequence [.field "name" (.rule "_named_expression_lhs"), mark ":=",
      .field "value" (.rule "expression")]),
  ("_named_expression_lhs", oneOf [.token .identifier, .rule "keyword_identifier"]),
  ("return_statement", sequence [word "return", opt (.rule "_expressions")]),
  ("delete_statement", sequence [word "del", .rule "_expressions"]),
  ("_expressions", oneOf [.rule "expression", .rule "expression_list"]),
  ("raise_statement",
    sequence [word "raise", opt (.rule "_expressions"),
      opt (sequence [word "from", .field "cause" (.rule "expression")])]),
  ("pass_statement", precLeft 0 (word "pass")),
  ("break_statement", precLeft 0 (word "break")),
  ("continue_statement", precLeft 0 (word "continue"))]

/-- Statements with a body. -/
def compoundStatementRules : List (String × RuleBody) := [
  ("_compound_statement",
    oneOf [.rule "if_statement", .rule "for_statement", .rule "while_statement",
      .rule "try_statement", .rule "with_statement", .rule "function_definition",
      .rule "class_definition", .rule "decorated_definition", .rule "match_statement"]),
  ("if_statement",
    sequence [word "if", .field "condition" (.rule "expression"), mark ":",
      .field "consequence" (.rule "_suite"), many (.field "alternative" (.rule "elif_clause")),
      opt (.field "alternative" (.rule "else_clause"))]),
  ("elif_clause",
    sequence [word "elif", .field "condition" (.rule "expression"), mark ":",
      .field "consequence" (.rule "_suite")]),
  ("else_clause", sequence [word "else", mark ":", .field "body" (.rule "_suite")]),
  ("match_statement",
    sequence [word "match", commaSep1 (.field "subject" (.rule "expression")), opt (mark ","),
      mark ":", .field "body" (.named "block" (.rule "_match_block"))]),
  ("_match_block",
    oneOf [sequence [.token .indent, many (.field "alternative" (.rule "case_clause")),
        .token .dedent],
      .token .newline]),
  ("case_clause",
    sequence [word "case", commaSep1 (.rule "case_pattern"), opt (mark ","),
      opt (.field "guard" (.rule "if_clause")), mark ":", .field "consequence" (.rule "_suite")]),
  ("for_statement",
    sequence [opt (word "async"), word "for", .field "left" (.rule "_left_hand_side"), word "in",
      .field "right" (.rule "_expressions"), mark ":", .field "body" (.rule "_suite"),
      .field "alternative" (opt (.rule "else_clause"))]),
  ("while_statement",
    sequence [word "while", .field "condition" (.rule "expression"), mark ":",
      .field "body" (.rule "_suite"), opt (.field "alternative" (.rule "else_clause"))]),
  ("try_statement",
    sequence [word "try", mark ":", .field "body" (.rule "_suite"),
      oneOf [sequence [.many1 (.rule "except_clause"), opt (.rule "else_clause"),
          opt (.rule "finally_clause")],
        sequence [.many1 (.rule "except_group_clause"), opt (.rule "else_clause"),
          opt (.rule "finally_clause")],
        .rule "finally_clause"]]),
  ("except_clause",
    sequence [word "except",
      opt (sequence [.rule "expression",
        opt (sequence [oneOf [word "as", mark ","], .rule "expression"])]),
      mark ":", .rule "_suite"]),
  ("except_group_clause",
    sequence [mark "except*",
      sequence [.rule "expression", opt (sequence [word "as", .rule "expression"])], mark ":",
      .rule "_suite"]),
  ("finally_clause", sequence [word "finally", mark ":", .rule "_suite"]),
  ("with_statement",
    sequence [opt (word "async"), word "with", .rule "with_clause", mark ":",
      .field "body" (.rule "_suite")]),
  ("with_clause",
    oneOf [sequence [commaSep1 (.rule "with_item"), opt (mark ",")],
      sequence [mark "(", commaSep1 (.rule "with_item"), opt (mark ","), mark ")"]]),
  ("with_item", .weight 1 (sequence [.field "value" (.rule "expression")])),
  ("function_definition",
    sequence [opt (word "async"), word "def", .field "name" (.token .identifier),
      .field "type_parameters" (opt (.rule "type_parameter")),
      .field "parameters" (.rule "parameters"),
      opt (sequence [mark "->", .field "return_type" (.rule "type")]), mark ":",
      .field "body" (.rule "_suite")]),
  ("parameters", sequence [mark "(", opt (.rule "_parameters"), mark ")"]),
  ("lambda_parameters", .rule "_parameters"),
  ("list_splat", sequence [mark "*", .rule "expression"]),
  ("dictionary_splat", sequence [mark "**", .rule "expression"]),
  ("global_statement", sequence [word "global", commaSep1 (.token .identifier)]),
  ("nonlocal_statement", sequence [word "nonlocal", commaSep1 (.token .identifier)]),
  ("exec_statement",
    sequence [word "exec", .field "code" (oneOf [.rule "string", .token .identifier]),
      opt (sequence [word "in", commaSep1 (.rule "expression")])]),
  ("type_alias_statement",
    .weight 1 (sequence [word "type", .rule "type", mark "=", .rule "type"])),
  ("class_definition",
    sequence [word "class", .field "name" (.token .identifier),
      .field "type_parameters" (opt (.rule "type_parameter")),
      .field "superclasses" (opt (.rule "argument_list")), mark ":",
      .field "body" (.rule "_suite")]),
  ("type_parameter", sequence [mark "[", commaSep1 (.rule "type"), opt (mark ","), mark "]"]),
  ("parenthesized_list_splat",
    prec 1 (sequence [mark "(",
      oneOf [.named "parenthesized_expression" (.rule "parenthesized_list_splat"),
        .rule "list_splat"],
      mark ")"])),
  ("argument_list",
    sequence [mark "(",
      opt (commaSep1 (oneOf [.rule "expression", .rule "list_splat", .rule "dictionary_splat",
        .named "parenthesized_expression" (.rule "parenthesized_list_splat"),
        .rule "keyword_argument"])),
      opt (mark ","), mark ")"]),
  ("decorated_definition",
    sequence [.many1 (.rule "decorator"),
      .field "definition" (oneOf [.rule "class_definition", .rule "function_definition"])]),
  ("decorator", sequence [mark "@", .rule "expression", .token .newline]),
  ("_suite",
    oneOf [.named "block" (.rule "_simple_statements"), sequence [.token .indent, .rule "block"],
      .named "block" (.token .newline)]),
  ("block", sequence [many (.rule "_statement"), .token .dedent]),
  ("expression_list",
    precRight 0 (sequence [.rule "expression",
      oneOf [mark ",",
        sequence [.many1 (sequence [mark ",", .rule "expression"]), opt (mark ",")]]])),
  ("dotted_name", prec 1 (sepBy1 (.token .identifier) (mark ".")))]

/-- What a `case` can match. -/
def casePatternRules : List (String × RuleBody) := [
  ("case_pattern",
    prec 1 (oneOf [.named "as_pattern" (.rule "_as_pattern"), .rule "keyword_pattern",
      .rule "_simple_pattern"])),
  ("_simple_pattern",
    prec 1 (oneOf [.rule "class_pattern", .rule "splat_pattern", .rule "union_pattern",
      .named "list_pattern" (.rule "_list_pattern"),
      .named "tuple_pattern" (.rule "_tuple_pattern"), .rule "dict_pattern", .rule "string",
      .rule "concatenated_string", word "True", word "False", word "None",
      sequence [opt (mark "-"), oneOf [.token .integer, .token .float]], .rule "complex_pattern",
      .rule "dotted_name", word "_"])),
  ("_as_pattern", sequence [.rule "case_pattern", word "as", .token .identifier]),
  ("union_pattern",
    precRight 0 (sequence [.rule "_simple_pattern",
      .many1 (precLeft 0 (sequence [mark "|", .rule "_simple_pattern"]))])),
  ("_list_pattern",
    sequence [mark "[", opt (sequence [commaSep1 (.rule "case_pattern"), opt (mark ",")]),
      mark "]"]),
  ("_tuple_pattern",
    sequence [mark "(", opt (sequence [commaSep1 (.rule "case_pattern"), opt (mark ",")]),
      mark ")"]),
  ("dict_pattern",
    sequence [mark "\x7b",
      opt (sequence [commaSep1 (oneOf [.rule "_key_value_pattern", .rule "splat_pattern"]),
        opt (mark ",")]),
      mark "\x7d"]),
  ("_key_value_pattern",
    sequence [.field "key" (.rule "_simple_pattern"), mark ":",
      .field "value" (.rule "case_pattern")]),
  ("keyword_pattern", sequence [.token .identifier, mark "=", .rule "_simple_pattern"]),
  ("splat_pattern",
    prec 1 (sequence [oneOf [mark "*", mark "**"], oneOf [.token .identifier, word "_"]])),
  ("class_pattern",
    sequence [.rule "dotted_name", mark "(",
      opt (sequence [commaSep1 (.rule "case_pattern"), opt (mark ",")]), mark ")"]),
  ("complex_pattern",
    prec 1 (sequence [opt (mark "-"), oneOf [.token .integer, .token .float],
      oneOf [mark "+", mark "-"], oneOf [.token .integer, .token .float]]))]

/-- Parameters, and what can be assigned to. -/
def targetRules : List (String × RuleBody) := [
  ("_parameters", sequence [commaSep1 (.rule "parameter"), opt (mark ",")]),
  ("_patterns", sequence [commaSep1 (.rule "pattern"), opt (mark ",")]),
  ("parameter",
    oneOf [.token .identifier, .rule "typed_parameter", .rule "default_parameter",
      .rule "typed_default_parameter", .rule "list_splat_pattern", .rule "tuple_pattern",
      .rule "keyword_separator", .rule "positional_separator", .rule "dictionary_splat_pattern"]),
  ("pattern",
    oneOf [.token .identifier, .rule "keyword_identifier", .rule "subscript", .rule "attribute",
      .rule "list_splat_pattern", .rule "tuple_pattern", .rule "list_pattern"]),
  ("tuple_pattern", sequence [mark "(", opt (.rule "_patterns"), mark ")"]),
  ("list_pattern", sequence [mark "[", opt (.rule "_patterns"), mark "]"]),
  ("default_parameter",
    sequence [.field "name" (oneOf [.token .identifier, .rule "tuple_pattern"]), mark "=",
      .field "value" (.rule "expression")]),
  ("typed_default_parameter",
    prec (-1) (sequence [.field "name" (.token .identifier), mark ":", .field "type" (.rule "type"),
      mark "=", .field "value" (.rule "expression")])),
  ("list_splat_pattern",
    sequence [mark "*",
      oneOf [.token .identifier, .rule "keyword_identifier", .rule "subscript",
        .rule "attribute"]]),
  ("dictionary_splat_pattern",
    sequence [mark "**",
      oneOf [.token .identifier, .rule "keyword_identifier", .rule "subscript",
        .rule "attribute"]]),
  ("as_pattern",
    precLeft 0 (sequence [.rule "expression", word "as",
      .field "alias" (.named "as_pattern_target" (.rule "expression"))]))]

def expressionRules : List (String × RuleBody) := [
  ("_expression_within_for_in_clause",
    oneOf [.rule "expression", .named "lambda" (.rule "lambda_within_for_in_clause")]),
  ("expression",
    oneOf [.rule "comparison_operator", .rule "not_operator", .rule "boolean_operator",
      .rule "lambda", .rule "primary_expression", .rule "conditional_expression",
      .rule "named_expression", .rule "as_pattern"]),
  ("primary_expression",
    oneOf [.rule "await", .rule "binary_operator", .token .identifier, .rule "keyword_identifier",
      .rule "string", .rule "concatenated_string", .token .integer, .token .float, word "True",
      word "False", word "None", .rule "unary_operator", .rule "attribute", .rule "subscript",
      .rule "call", .rule "list", .rule "list_comprehension", .rule "dictionary",
      .rule "dictionary_comprehension", .rule "set", .rule "set_comprehension", .rule "tuple",
      .rule "parenthesized_expression", .rule "generator_expression", mark "...",
      .named "list_splat" (.rule "list_splat_pattern")]),
  ("not_operator",
    prec Level.negation (sequence [word "not", .field "argument" (.rule "expression")])),
  ("boolean_operator",
    oneOf [precLeft Level.conjunction (sequence [.field "left" (.rule "expression"),
        .field "operator" (word "and"), .field "right" (.rule "expression")]),
      precLeft Level.disjunction (sequence [.field "left" (.rule "expression"),
        .field "operator" (word "or"), .field "right" (.rule "expression")])]),
  ("binary_operator",
    oneOf [precLeft Level.plus (sequence [.field "left" (.rule "primary_expression"),
        .field "operator" (mark "+"), .field "right" (.rule "primary_expression")]),
      precLeft Level.plus (sequence [.field "left" (.rule "primary_expression"),
        .field "operator" (mark "-"), .field "right" (.rule "primary_expression")]),
      precLeft Level.times (sequence [.field "left" (.rule "primary_expression"),
        .field "operator" (mark "*"), .field "right" (.rule "primary_expression")]),
      precLeft Level.times (sequence [.field "left" (.rule "primary_expression"),
        .field "operator" (mark "@"), .field "right" (.rule "primary_expression")]),
      precLeft Level.times (sequence [.field "left" (.rule "primary_expression"),
        .field "operator" (mark "/"), .field "right" (.rule "primary_expression")]),
      precLeft Level.times (sequence [.field "left" (.rule "primary_expression"),
        .field "operator" (mark "%"), .field "right" (.rule "primary_expression")]),
      precLeft Level.times (sequence [.field "left" (.rule "primary_expression"),
        .field "operator" (mark "//"), .field "right" (.rule "primary_expression")]),
      precRight Level.power (sequence [.field "left" (.rule "primary_expression"),
        .field "operator" (mark "**"), .field "right" (.rule "primary_expression")]),
      precLeft Level.bitOr (sequence [.field "left" (.rule "primary_expression"),
        .field "operator" (mark "|"), .field "right" (.rule "primary_expression")]),
      precLeft Level.bitAnd (sequence [.field "left" (.rule "primary_expression"),
        .field "operator" (mark "&"), .field "right" (.rule "primary_expression")]),
      precLeft Level.bitXor (sequence [.field "left" (.rule "primary_expression"),
        .field "operator" (mark "^"), .field "right" (.rule "primary_expression")]),
      precLeft Level.shift (sequence [.field "left" (.rule "primary_expression"),
        .field "operator" (mark "<<"), .field "right" (.rule "primary_expression")]),
      precLeft Level.shift (sequence [.field "left" (.rule "primary_expression"),
        .field "operator" (mark ">>"), .field "right" (.rule "primary_expression")])]),
  ("unary_operator",
    prec Level.unary (sequence [.field "operator" (oneOf [mark "+", mark "-", mark "~"]),
      .field "argument" (.rule "primary_expression")])),
  ("comparison_operator",
    precLeft Level.compare (sequence [.rule "primary_expression",
      .many1 (sequence [.field "operators" (oneOf [mark "<", mark "<=", mark "==", mark "!=",
          mark ">=", mark ">", mark "<>", word "in", sequence [word "not", word "in"], word "is",
          sequence [word "is", word "not"]]),
        .rule "primary_expression"])])),
  ("lambda",
    prec (-2) (sequence [word "lambda", .field "parameters" (opt (.rule "lambda_parameters")),
      mark ":", .field "body" (.rule "expression")])),
  ("lambda_within_for_in_clause",
    sequence [word "lambda", .field "parameters" (opt (.rule "lambda_parameters")), mark ":",
      .field "body" (.rule "_expression_within_for_in_clause")]),
  ("assignment",
    sequence [.field "left" (.rule "_left_hand_side"),
      oneOf [sequence [mark "=", .field "right" (.rule "_right_hand_side")],
        sequence [mark ":", .field "type" (.rule "type")],
        sequence [mark ":", .field "type" (.rule "type"), mark "=",
          .field "right" (.rule "_right_hand_side")]]]),
  ("augmented_assignment",
    sequence [.field "left" (.rule "_left_hand_side"),
      .field "operator" (oneOf [mark "+=", mark "-=", mark "*=", mark "/=", mark "@=", mark "//=",
        mark "%=", mark "**=", mark ">>=", mark "<<=", mark "&=", mark "^=", mark "|="]),
      .field "right" (.rule "_right_hand_side")]),
  ("_left_hand_side", oneOf [.rule "pattern", .rule "pattern_list"]),
  ("pattern_list",
    sequence [.rule "pattern",
      oneOf [mark ",", sequence [.many1 (sequence [mark ",", .rule "pattern"]), opt (mark ",")]]]),
  ("_right_hand_side",
    oneOf [.rule "expression", .rule "expression_list", .rule "assignment",
      .rule "augmented_assignment", .rule "pattern_list", .rule "yield"]),
  ("yield",
    precRight 0 (sequence [word "yield",
      oneOf [sequence [word "from", .rule "expression"], opt (.rule "_expressions")]])),
  ("attribute",
    prec Level.call (sequence [.field "object" (.rule "primary_expression"), mark ".",
      .field "attribute" (.token .identifier)])),
  ("subscript",
    prec Level.call (sequence [.field "value" (.rule "primary_expression"), mark "[",
      commaSep1 (.field "subscript" (oneOf [.rule "expression", .rule "slice"])), opt (mark ","),
      mark "]"])),
  ("slice",
    sequence [opt (.rule "expression"), mark ":", opt (.rule "expression"),
      opt (sequence [mark ":", opt (.rule "expression")])]),
  ("call",
    prec Level.call (sequence [.field "function" (.rule "primary_expression"),
      .field "arguments" (oneOf [.rule "generator_expression", .rule "argument_list"])])),
  ("typed_parameter",
    prec (-1) (sequence [oneOf [.token .identifier, .rule "list_splat_pattern",
        .rule "dictionary_splat_pattern"],
      mark ":", .field "type" (.rule "type")])),
  ("type",
    oneOf [.rule "expression", .rule "splat_type", .rule "generic_type", .rule "union_type",
      .rule "constrained_type", .rule "member_type"]),
  ("splat_type", prec 1 (sequence [oneOf [mark "*", mark "**"], .token .identifier])),
  ("generic_type", prec 1 (sequence [.token .identifier, .rule "type_parameter"])),
  ("union_type", precLeft 0 (sequence [.rule "type", mark "|", .rule "type"])),
  ("constrained_type", precRight 0 (sequence [.rule "type", mark ":", .rule "type"])),
  ("member_type", sequence [.rule "type", mark ".", .token .identifier]),
  ("keyword_argument",
    sequence [.field "name" (oneOf [.token .identifier, .rule "keyword_identifier"]), mark "=",
      .field "value" (.rule "expression")])]

/-- Displays, comprehensions and what stands in brackets. -/
def collectionRules : List (String × RuleBody) := [
  ("list", sequence [mark "[", opt (.rule "_collection_elements"), mark "]"]),
  ("set", sequence [mark "\x7b", .rule "_collection_elements", mark "\x7d"]),
  ("tuple", sequence [mark "(", opt (.rule "_collection_elements"), mark ")"]),
  ("dictionary",
    sequence [mark "\x7b", opt (commaSep1 (oneOf [.rule "pair", .rule "dictionary_splat"])),
      opt (mark ","), mark "\x7d"]),
  ("pair",
    sequence [.field "key" (.rule "expression"), mark ":", .field "value" (.rule "expression")]),
  ("list_comprehension",
    sequence [mark "[", .field "body" (.rule "expression"), .rule "_comprehension_clauses",
      mark "]"]),
  ("dictionary_comprehension",
    sequence [mark "\x7b", .field "body" (.rule "pair"), .rule "_comprehension_clauses",
      mark "\x7d"]),
  ("set_comprehension",
    sequence [mark "\x7b", .field "body" (.rule "expression"), .rule "_comprehension_clauses",
      mark "\x7d"]),
  ("generator_expression",
    sequence [mark "(", .field "body" (.rule "expression"), .rule "_comprehension_clauses",
      mark ")"]),
  ("_comprehension_clauses",
    sequence [.rule "for_in_clause", many (oneOf [.rule "for_in_clause", .rule "if_clause"])]),
  ("parenthesized_expression",
    prec 1 (sequence [mark "(", oneOf [.rule "expression", .rule "yield"], mark ")"])),
  ("_collection_elements",
    sequence [commaSep1 (oneOf [.rule "expression", .rule "yield", .rule "list_splat",
        .rule "parenthesized_list_splat"]),
      opt (mark ",")]),
  ("for_in_clause",
    precLeft 0 (sequence [opt (word "async"), word "for", .field "left" (.rule "_left_hand_side"),
      word "in", .field "right" (commaSep1 (.rule "_expression_within_for_in_clause")),
      opt (mark ",")])),
  ("if_clause", sequence [word "if", .rule "expression"]),
  ("conditional_expression",
    precRight (-1) (sequence [.rule "expression", word "if", .rule "expression", word "else",
      .rule "expression"]))]

/-- Strings and the words that double as identifiers. -/
def literalRules : List (String × RuleBody) := [
  ("concatenated_string", sequence [.rule "string", .many1 (.rule "string")]),
  ("string",
    sequence [.token .stringStart, many (oneOf [.rule "interpolation", .rule "string_content"]),
      .token .stringEnd]),
  ("string_content",
    precRight 0 (.many1 (oneOf [.token .doubledBrace, .token .escape, .token .backslash,
      .token .stringText]))),
  ("interpolation",
    sequence [mark "\x7b", .field "expression" (.rule "_f_expression"), opt (mark "="),
      opt (.field "type_conversion" (.token .conversion)),
      opt (.field "format_specifier" (.rule "format_specifier")), mark "\x7d"]),
  ("_f_expression",
    oneOf [.rule "expression", .rule "expression_list", .rule "pattern_list", .rule "yield"]),
  ("format_specifier",
    sequence [mark ":",
      many (oneOf [(.token .formatText), .named "format_expression" (.rule "interpolation")])]),
  ("keyword_identifier",
    oneOf [prec (-3) (.named "identifier" (oneOf [word "print", word "exec", word "async",
        word "await", word "match"])),
      .named "identifier" (word "type")]),
  ("await", prec Level.unary (sequence [word "await", .rule "primary_expression"])),
  ("positional_separator", mark "/"),
  ("keyword_separator", mark "*")]

def grammar : RuleBook Token where
  rules := simpleStatementRules ++ compoundStatementRules ++ casePatternRules ++ targetRules
    ++ expressionRules ++ collectionRules ++ literalRules
  inlined :=
    ["_simple_statement", "_compound_statement", "_suite", "_expressions", "_left_hand_side",
    "keyword_identifier"]
  grouping := ["expression", "primary_expression", "pattern", "parameter"]
  extras := [.comment, .continuation]
  finish := .finish

end CodeAtlas.Python
