/-!
# Node kinds

The kinds of node a module's tree is made of, and for each kind the tag it carries and the
fields it has.  The fields of a kind stand in the order in which a traversal visits them, so a
node that keeps its parts in this order is walked in document order by walking its parts from
left to right.

Two objects occur without a tag: an element of an argument list or an array, and the function
that a class method wraps.
-/

namespace PropCatalog.Tree

/-- The kind of a node whose fields are known. -/
inductive Kind where
  | argument | functionPart | moduleBody | importDeclaration | importDefault | importNamespace
  | importNamed | exportDeclaration | exportDefaultDeclaration | exportDefaultExpression
  | exportNamed | exportAll | exportSpecifier | exportNamespace | exportDefaultSpecifier
  | blockStatement | emptyStatement | debuggerStatement | withStatement | returnStatement
  | labeledStatement | breakStatement | continueStatement | ifStatement | switchStatement
  | switchCase | throwStatement | tryStatement | catchClause | whileStatement
  | doWhileStatement | forStatement | forInStatement | forOfStatement | expressionStatement
  | variableDeclaration | variableDeclarator | usingDeclaration | functionDeclaration
  | classDeclaration | parameter | constructorMember | classMethod | privateMethod
  | classProperty | privateProperty | autoAccessor | staticBlock | decorator | thisExpression
  | superKeyword | importKeyword | arrayExpression | objectExpression | keyValueProperty
  | assignmentProperty | getterProperty | setterProperty | methodProperty | spreadElement
  | computedKey | functionExpression | classExpression | arrowFunction | unaryExpression
  | updateExpression | binaryExpression | assignmentExpression | memberExpression
  | superProperty | conditionalExpression | callExpression | newExpression | sequenceExpression
  | yieldExpression | awaitExpression | metaProperty | parenthesisExpression | optionalChain
  | privateName | taggedTemplate | templateLiteral | templateElement | stringLiteral
  | booleanLiteral | nullLiteral | numericLiteral | bigIntLiteral | regExpLiteral
  | arrayPattern | objectPattern | assignmentPattern | restElement | keyValuePattern
  | assignmentPatternProperty | jsxElement | jsxOpening | jsxClosing | jsxFragment
  | jsxOpeningFragment | jsxClosingFragment | jsxAttribute | jsxText | jsxContainer
  | jsxSpreadChild | jsxEmpty | jsxMember | jsxNamespacedName | tsTypeAscription
  | tsTypeParameters | tsTypeParameter | tsTypeArguments | tsParameterProperty
  | tsQualifiedName | tsKeywordType | tsThisType | tsFunctionType | tsConstructorType
  | tsTypeReference | tsTypePredicate | tsTypeQuery | tsImportType | tsTypeLiteral
  | tsArrayType | tsTupleType | tsTupleElement | tsOptionalType | tsRestType | tsUnionType
  | tsIntersectionType | tsConditionalType | tsInferType | tsParenthesizedType | tsTypeOperator
  | tsIndexedAccessType | tsMappedType | tsLiteralType | tsTemplateType | tsPropertySignature
  | tsGetterSignature | tsSetterSignature | tsMethodSignature | tsCallSignature
  | tsConstructSignature | tsIndexSignature | tsInterfaceDeclaration | tsInterfaceBody
  | tsInterfaceHeritage | tsTypeAliasDeclaration | tsEnumDeclaration | tsEnumMember
  | tsModuleDeclaration | tsModuleBlock | tsNamespaceDeclaration | tsImportEquals
  | tsExternalModule | tsExportAssignment | tsNamespaceExport | tsAsExpression
  | tsTypeAssertion | tsConstAssertion | tsNonNull | tsSatisfies | tsInstantiation
deriving DecidableEq, Repr

namespace Kind

/-- Every kind, once. -/
def all : List Kind := [
  .argument, .functionPart, .moduleBody, .importDeclaration, .importDefault, .importNamespace,
  .importNamed, .exportDeclaration, .exportDefaultDeclaration, .exportDefaultExpression,
  .exportNamed, .exportAll, .exportSpecifier, .exportNamespace, .exportDefaultSpecifier,
  .blockStatement, .emptyStatement, .debuggerStatement, .withStatement, .returnStatement,
  .labeledStatement, .breakStatement, .continueStatement, .ifStatement, .switchStatement,
  .switchCase, .throwStatement, .tryStatement, .catchClause, .whileStatement, .doWhileStatement,
  .forStatement, .forInStatement, .forOfStatement, .expressionStatement, .variableDeclaration,
  .variableDeclarator, .usingDeclaration, .functionDeclaration, .classDeclaration, .parameter,
  .constructorMember, .classMethod, .privateMethod, .classProperty, .privateProperty,
  .autoAccessor, .staticBlock, .decorator, .thisExpression, .superKeyword, .importKeyword,
  .arrayExpression, .objectExpression, .keyValueProperty, .assignmentProperty, .getterProperty,
  .setterProperty, .methodProperty, .spreadElement, .computedKey, .functionExpression,
  .classExpression, .arrowFunction, .unaryExpression, .updateExpression, .binaryExpression,
  .assignmentExpression, .memberExpression, .superProperty, .conditionalExpression,
  .callExpression, .newExpression, .sequenceExpression, .yieldExpression, .awaitExpression,
  .metaProperty, .parenthesisExpression, .optionalChain, .privateName, .taggedTemplate,
  .templateLiteral, .templateElement, .stringLiteral, .booleanLiteral, .nullLiteral,
  .numericLiteral, .bigIntLiteral, .regExpLiteral, .arrayPattern, .objectPattern,
  .assignmentPattern, .restElement, .keyValuePattern, .assignmentPatternProperty, .jsxElement,
  .jsxOpening, .jsxClosing, .jsxFragment, .jsxOpeningFragment, .jsxClosingFragment,
  .jsxAttribute, .jsxText, .jsxContainer, .jsxSpreadChild, .jsxEmpty, .jsxMember,
  .jsxNamespacedName, .tsTypeAscription, .tsTypeParameters, .tsTypeParameter, .tsTypeArguments,
  .tsParameterProperty, .tsQualifiedName, .tsKeywordType, .tsThisType, .tsFunctionType,
  .tsConstructorType, .tsTypeReference, .tsTypePredicate, .tsTypeQuery, .tsImportType,
  .tsTypeLiteral, .tsArrayType, .tsTupleType, .tsTupleElement, .tsOptionalType, .tsRestType,
  .tsUnionType, .tsIntersectionType, .tsConditionalType, .tsInferType, .tsParenthesizedType,
  .tsTypeOperator, .tsIndexedAccessType, .tsMappedType, .tsLiteralType, .tsTemplateType,
  .tsPropertySignature, .tsGetterSignature, .tsSetterSignature, .tsMethodSignature,
  .tsCallSignature, .tsConstructSignature, .tsIndexSignature, .tsInterfaceDeclaration,
  .tsInterfaceBody, .tsInterfaceHeritage, .tsTypeAliasDeclaration, .tsEnumDeclaration,
  .tsEnumMember, .tsModuleDeclaration, .tsModuleBlock, .tsNamespaceDeclaration, .tsImportEquals,
  .tsExternalModule, .tsExportAssignment, .tsNamespaceExport, .tsAsExpression, .tsTypeAssertion,
  .tsConstAssertion, .tsNonNull, .tsSatisfies, .tsInstantiation]

/-- The tag of a kind, if its nodes carry one, and its fields in the order of a traversal. -/
def layout : Kind → Option String × List String
  | .argument => (none, ["spread", "expression"])
  | .functionPart => (none,
      ["params", "decorators", "span", "ctxt", "body", "generator", "async", "typeParameters",
       "returnType"])
  | .moduleBody => (some "Module", ["span", "body", "interpreter"])
  | .importDeclaration => (some "ImportDeclaration",
      ["span", "specifiers", "source", "typeOnly", "with", "phase"])
  | .importDefault => (some "ImportDefaultSpecifier", ["span", "local"])
  | .importNamespace => (some "ImportNamespaceSpecifier", ["span", "local"])
  | .importNamed => (some "ImportSpecifier", ["span", "local", "imported", "isTypeOnly"])
  | .exportDeclaration => (some "ExportDeclaration", ["span", "declaration"])
  | .exportDefaultDeclaration => (some "ExportDefaultDeclaration", ["span", "decl"])
  | .exportDefaultExpression => (some "ExportDefaultExpression", ["span", "expression"])
  | .exportNamed => (some "ExportNamedDeclaration",
      ["span", "specifiers", "source", "typeOnly", "with"])
  | .exportAll => (some "ExportAllDeclaration", ["span", "source", "typeOnly", "with"])
  | .exportSpecifier => (some "ExportSpecifier", ["span", "orig", "exported", "isTypeOnly"])
  | .exportNamespace => (some "ExportNamespaceSpecifier", ["span", "name"])
  | .exportDefaultSpecifier => (some "ExportDefaultSpecifier", ["span", "exported"])
  | .blockStatement => (some "BlockStatement", ["span", "ctxt", "stmts"])
  | .emptyStatement => (some "EmptyStatement", ["span"])
  | .debuggerStatement => (some "DebuggerStatement", ["span"])
  | .withStatement => (some "WithStatement", ["span", "object", "body"])
  | .returnStatement => (some "ReturnStatement", ["span", "argument"])
  | .labeledStatement => (some "LabeledStatement", ["span", "label", "body"])
  | .breakStatement => (some "BreakStatement", ["span", "label"])
  | .continueStatement => (some "ContinueStatement", ["span", "label"])
  | .ifStatement => (some "IfStatement", ["span", "test", "consequent", "alternate"])
  | .switchStatement => (some "SwitchStatement", ["span", "discriminant", "cases"])
  | .switchCase => (some "SwitchCase", ["span", "test", "consequent"])
  | .throwStatement => (some "ThrowStatement", ["span", "argument"])
  | .tryStatement => (some "TryStatement", ["span", "block", "handler", "finalizer"])
  | .catchClause => (some "CatchClause", ["span", "param", "body"])
  | .whileStatement => (some "WhileStatement", ["span", "test", "body"])
  | .doWhileStatement => (some "DoWhileStatement", ["span", "test", "body"])
  | .forStatement => (some "ForStatement", ["span", "init", "test", "update", "body"])
  | .forInStatement => (some "ForInStatement", ["span", "left", "right", "body"])
  | .forOfStatement => (some "ForOfStatement", ["span", "await", "left", "right", "body"])
  | .expressionStatement => (some "ExpressionStatement", ["span", "expression"])
  | .variableDeclaration => (some "VariableDeclaration",
      ["span", "ctxt", "kind", "declare", "declarations"])
  | .variableDeclarator => (some "VariableDeclarator", ["span", "id", "init", "definite"])
  | .usingDeclaration => (some "UsingDeclaration", ["span", "isAwait", "decls"])
  | .functionDeclaration => (some "FunctionDeclaration",
      ["identifier", "declare", "params", "decorators", "span", "ctxt", "body", "generator",
       "async", "typeParameters", "returnType"])
  | .classDeclaration => (some "ClassDeclaration",
      ["identifier", "declare", "span", "ctxt", "decorators", "body", "superClass", "isAbstract",
       "typeParams", "superTypeParams", "implements"])
  | .parameter => (some "Parameter", ["span", "decorators", "pat"])
  | .constructorMember => (some "Constructor",
      ["span", "ctxt", "key", "params", "body", "accessibility", "isOptional"])
  | .classMethod => (some "ClassMethod",
      ["span", "key", "function", "kind", "isStatic", "accessibility", "isAbstract",
       "isOptional", "isOverride"])
  | .privateMethod => (some "PrivateMethod",
      ["span", "key", "function", "kind", "isStatic", "accessibility", "isAbstract",
       "isOptional", "isOverride"])
  | .classProperty => (some "ClassProperty",
      ["span", "key", "value", "typeAnnotation", "isStatic", "decorators", "accessibility",
       "isAbstract", "isOptional", "isOverride", "readonly", "declare", "definite"])
  | .privateProperty => (some "PrivateProperty",
      ["span", "ctxt", "key", "value", "typeAnnotation", "isStatic", "decorators",
       "accessibility", "isOptional", "isOverride", "readonly", "definite"])
  | .autoAccessor => (some "AutoAccessor",
      ["span", "key", "value", "typeAnnotation", "isStatic", "decorators", "accessibility",
       "isAbstract", "isOverride", "definite"])
  | .staticBlock => (some "StaticBlock", ["span", "body"])
  | .decorator => (some "Decorator", ["span", "expression"])
  | .thisExpression => (some "ThisExpression", ["span"])
  | .superKeyword => (some "Super", ["span"])
  | .importKeyword => (some "Import", ["span", "phase"])
  | .arrayExpression => (some "ArrayExpression", ["span", "elements"])
  | .objectExpression => (some "ObjectExpression", ["span", "properties"])
  | .keyValueProperty => (some "KeyValueProperty", ["key", "value"])
  | .assignmentProperty => (some "AssignmentProperty", ["span", "key", "value"])
  | .getterProperty => (some "GetterProperty", ["span", "key", "typeAnnotation", "body"])
  | .setterProperty => (some "SetterProperty", ["span", "key", "thisParam", "param", "body"])
  | .methodProperty => (some "MethodProperty",
      ["key", "params", "decorators", "span", "ctxt", "body", "generator", "async",
       "typeParameters", "returnType"])
  | .spreadElement => (some "SpreadElement", ["spread", "arguments"])
  | .computedKey => (some "Computed", ["span", "expression"])
  | .functionExpression => (some "FunctionExpression",
      ["identifier", "params", "decorators", "span", "ctxt", "body", "generator", "async",
       "typeParameters", "returnType"])
  | .classExpression => (some "ClassExpression",
      ["identifier", "span", "ctxt", "decorators", "body", "superClass", "isAbstract",
       "typeParams", "superTypeParams", "implements"])
  | .arrowFunction => (some "ArrowFunctionExpression",
      ["span", "ctxt", "params", "body", "async", "generator", "typeParameters", "returnType"])
  | .unaryExpression => (some "UnaryExpression", ["span", "operator", "argument"])
  | .updateExpression => (some "UpdateExpression", ["span", "operator", "prefix", "argument"])
  | .binaryExpression => (some "BinaryExpression", ["span", "operator", "left", "right"])
  | .assignmentExpression => (some "AssignmentExpression", ["span", "operator", "left", "right"])
  | .memberExpression => (some "MemberExpression", ["span", "object", "property"])
  | .superProperty => (some "SuperPropExpression", ["span", "obj", "property"])
  | .conditionalExpression => (some "ConditionalExpression",
      ["span", "test", "consequent", "alternate"])
  | .callExpression => (some "CallExpression",
      ["span", "ctxt", "callee", "arguments", "typeArguments"])
  | .newExpression => (some "NewExpression",
      ["span", "ctxt", "callee", "arguments", "typeArguments"])
  | .sequenceExpression => (some "SequenceExpression", ["span", "expressions"])
  | .yieldExpression => (some "YieldExpression", ["span", "argument", "delegate"])
  | .awaitExpression => (some "AwaitExpression", ["span", "argument"])
  | .metaProperty => (some "MetaProperty", ["span", "kind"])
  | .parenthesisExpression => (some "ParenthesisExpression", ["span", "expression"])
  | .optionalChain => (some "OptionalChainingExpression", ["span", "optional", "base"])
  | .privateName => (some "PrivateName", ["span", "value"])
  | .taggedTemplate => (some "TaggedTemplateExpression",
      ["span", "ctxt", "tag", "typeParameters", "template"])
  | .templateLiteral => (some "TemplateLiteral", ["span", "expressions", "quasis"])
  | .templateElement => (some "TemplateElement", ["span", "tail", "cooked", "raw"])
  | .stringLiteral => (some "StringLiteral", ["span", "value", "raw"])
  | .booleanLiteral => (some "BooleanLiteral", ["span", "value"])
  | .nullLiteral => (some "NullLiteral", ["span"])
  | .numericLiteral => (some "NumericLiteral", ["span", "value", "raw"])
  | .bigIntLiteral => (some "BigIntLiteral", ["span", "value", "raw"])
  | .regExpLiteral => (some "RegExpLiteral", ["span", "pattern", "flags"])
  | .arrayPattern => (some "ArrayPattern", ["span", "elements", "optional", "typeAnnotation"])
  | .objectPattern => (some "ObjectPattern", ["span", "properties", "optional", "typeAnnotation"])
  | .assignmentPattern => (some "AssignmentPattern", ["span", "left", "right"])
  | .restElement => (some "RestElement", ["span", "rest", "argument", "typeAnnotation"])
  | .keyValuePattern => (some "KeyValuePatternProperty", ["key", "value"])
  | .assignmentPatternProperty => (some "AssignmentPatternProperty", ["span", "key", "value"])
  | .jsxElement => (some "JSXElement", ["span", "opening", "children", "closing"])
  | .jsxOpening => (some "JSXOpeningElement",
      ["name", "span", "attributes", "selfClosing", "typeArguments"])
  | .jsxClosing => (some "JSXClosingElement", ["span", "name"])
  | .jsxFragment => (some "JSXFragment", ["span", "opening", "children", "closing"])
  | .jsxOpeningFragment => (some "JSXOpeningFragment", ["span"])
  | .jsxClosingFragment => (some "JSXClosingFragment", ["span"])
  | .jsxAttribute => (some "JSXAttribute", ["span", "name", "value"])
  | .jsxText => (some "JSXText", ["span", "value", "raw"])
  | .jsxContainer => (some "JSXExpressionContainer", ["span", "expression"])
  | .jsxSpreadChild => (some "JSXSpreadChild", ["span", "expression"])
  | .jsxEmpty => (some "JSXEmptyExpression", ["span"])
  | .jsxMember => (some "JSXMemberExpression", ["span", "object", "property"])
  | .jsxNamespacedName => (some "JSXNamespacedName", ["span", "namespace", "name"])
  | .tsTypeAscription => (some "TsTypeAnnotation", ["span", "typeAnnotation"])
  | .tsTypeParameters => (some "TsTypeParameterDeclaration", ["span", "parameters"])
  | .tsTypeParameter => (some "TsTypeParameter",
      ["span", "name", "in", "out", "const", "constraint", "default"])
  | .tsTypeArguments => (some "TsTypeParameterInstantiation", ["span", "params"])
  | .tsParameterProperty => (some "TsParameterProperty",
      ["span", "decorators", "accessibility", "override", "readonly", "param"])
  | .tsQualifiedName => (some "TsQualifiedName", ["span", "left", "right"])
  | .tsKeywordType => (some "TsKeywordType", ["span", "kind"])
  | .tsThisType => (some "TsThisType", ["span"])
  | .tsFunctionType => (some "TsFunctionType", ["span", "params", "typeParams", "typeAnnotation"])
  | .tsConstructorType => (some "TsConstructorType",
      ["span", "params", "typeParams", "typeAnnotation", "isAbstract"])
  | .tsTypeReference => (some "TsTypeReference", ["span", "typeName", "typeParams"])
  | .tsTypePredicate => (some "TsTypePredicate",
      ["span", "asserts", "paramName", "typeAnnotation"])
  | .tsTypeQuery => (some "TsTypeQuery", ["span", "exprName", "typeArguments"])
  | .tsImportType => (some "TsImportType",
      ["span", "argument", "qualifier", "typeArguments", "attributes"])
  | .tsTypeLiteral => (some "TsTypeLiteral", ["span", "members"])
  | .tsArrayType => (some "TsArrayType", ["span", "elemType"])
  | .tsTupleType => (some "TsTupleType", ["span", "elemTypes"])
  | .tsTupleElement => (some "TsTupleElement", ["span", "label", "ty"])
  | .tsOptionalType => (some "TsOptionalType", ["span", "typeAnnotation"])
  | .tsRestType => (some "TsRestType", ["span", "typeAnnotation"])
  | .tsUnionType => (some "TsUnionType", ["span", "types"])
  | .tsIntersectionType => (some "TsIntersectionType", ["span", "types"])
  | .tsConditionalType => (some "TsConditionalType",
      ["span", "checkType", "extendsType", "trueType", "falseType"])
  | .tsInferType => (some "TsInferType", ["span", "typeParam"])
  | .tsParenthesizedType => (some "TsParenthesizedType", ["span", "typeAnnotation"])
  | .tsTypeOperator => (some "TsTypeOperator", ["span", "op", "typeAnnotation"])
  | .tsIndexedAccessType => (some "TsIndexedAccessType",
      ["span", "readonly", "objectType", "indexType"])
  | .tsMappedType => (some "TsMappedType",
      ["span", "readonly", "typeParam", "nameType", "optional", "typeAnnotation"])
  | .tsLiteralType => (some "TsLiteralType", ["span", "literal"])
  | .tsTemplateType => (some "TemplateLiteral", ["span", "types", "quasis"])
  | .tsPropertySignature => (some "TsPropertySignature",
      ["span", "readonly", "key", "computed", "optional", "typeAnnotation"])
  | .tsGetterSignature => (some "TsGetterSignature",
      ["span", "key", "computed", "typeAnnotation"])
  | .tsSetterSignature => (some "TsSetterSignature", ["span", "key", "computed", "param"])
  | .tsMethodSignature => (some "TsMethodSignature",
      ["span", "key", "computed", "optional", "params", "typeAnn", "typeParams"])
  | .tsCallSignature => (some "TsCallSignatureDeclaration",
      ["span", "params", "typeAnnotation", "typeParams"])
  | .tsConstructSignature => (some "TsConstructSignatureDeclaration",
      ["span", "params", "typeAnnotation", "typeParams"])
  | .tsIndexSignature => (some "TsIndexSignature",
      ["params", "typeAnnotation", "readonly", "static", "span"])
  | .tsInterfaceDeclaration => (some "TsInterfaceDeclaration",
      ["span", "id", "declare", "typeParams", "extends", "body"])
  | .tsInterfaceBody => (some "TsInterfaceBody", ["span", "body"])
  | .tsInterfaceHeritage => (some "TsExpressionWithTypeArguments",
      ["span", "expression", "typeArguments"])
  | .tsTypeAliasDeclaration => (some "TsTypeAliasDeclaration",
      ["span", "declare", "id", "typeParams", "typeAnnotation"])
  | .tsEnumDeclaration => (some "TsEnumDeclaration",
      ["span", "declare", "isConst", "id", "members"])
  | .tsEnumMember => (some "TsEnumMember", ["span", "id", "init"])
  | .tsModuleDeclaration => (some "TsModuleDeclaration",
      ["span", "declare", "global", "namespace", "id", "body"])
  | .tsModuleBlock => (some "TsModuleBlock", ["span", "body"])
  | .tsNamespaceDeclaration => (some "TsNamespaceDeclaration",
      ["span", "declare", "global", "id", "body"])
  | .tsImportEquals => (some "TsImportEqualsDeclaration",
      ["span", "isExport", "isTypeOnly", "id", "moduleRef"])
  | .tsExternalModule => (some "TsExternalModuleReference", ["span", "expression"])
  | .tsExportAssignment => (some "TsExportAssignment", ["span", "expression"])
  | .tsNamespaceExport => (some "TsNamespaceExportDeclaration", ["span", "id"])
  | .tsAsExpression => (some "TsAsExpression", ["span", "expression", "typeAnnotation"])
  | .tsTypeAssertion => (some "TsTypeAssertion", ["span", "expression", "typeAnnotation"])
  | .tsConstAssertion => (some "TsConstAssertion", ["span", "expression"])
  | .tsNonNull => (some "TsNonNullExpression", ["span", "expression"])
  | .tsSatisfies => (some "TsSatisfiesExpression", ["span", "expression", "typeAnnotation"])
  | .tsInstantiation => (some "TsInstantiation", ["span", "expression", "typeArguments"])

/-- The tag that nodes of this kind carry. -/
def tag (k : Kind) : Option String := k.layout.1

/-- The fields of a kind, in the order in which a traversal visits them. -/
def fields (k : Kind) : List String := k.layout.2

/-- The kind with the given tag and exactly the given fields, in whatever order. -/
def ofRecord? (tag : Option String) (names : List String) : Option Kind :=
  all.find? fun k =>
    k.tag == tag && k.fields.length == names.length && k.fields.all names.contains

end Kind

end PropCatalog.Tree
