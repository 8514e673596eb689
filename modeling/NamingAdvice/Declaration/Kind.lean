import NamingAdvice.Text

/-! The kinds of declaration, the modifiers they may carry, and the labels of both. -/

namespace NamingAdvice

/-- What a declaration introduces. -/
inductive Kind where
  | classType
  | interfaceType
  | enumType
  | annotationType
  | recordType
  | method
  | constructor
  | staticInitializer
  | instanceInitializer
  | field
  | enumConstant
  | parameter
  | localVariable
  | exceptionParameter
  | resourceVariable
  | typeParameter
deriving DecidableEq, Repr

/-- The coarse sort of a kind. -/
inductive Category where
  | type
  | executable
  | variable
  | other
deriving DecidableEq, Repr

/-- A keyword in front of a declaration. -/
inductive Modifier where
  | isPublic
  | isProtected
  | isPrivate
  | isAbstract
  | isDefault
  | isStatic
  | isFinal
  | isTransient
  | isVolatile
  | isSynchronized
  | isNative
  | isStrictfp
  | isSealed
  | isNonSealed
deriving DecidableEq, Repr

namespace Kind

/-- All kinds, in the order in which they are listed to a reader. -/
def all : List Kind := [
  .classType, .interfaceType, .enumType, .annotationType, .recordType,
  .method, .constructor, .staticInitializer, .instanceInitializer,
  .field, .enumConstant, .parameter, .localVariable, .exceptionParameter, .resourceVariable,
  .typeParameter
]

def label : Kind → Text
  | .classType => text "class"
  | .interfaceType => text "interface"
  | .enumType => text "enum"
  | .annotationType => text "annotation_type"
  | .recordType => text "record"
  | .method => text "method"
  | .constructor => text "constructor"
  | .staticInitializer => text "static_init"
  | .instanceInitializer => text "instance_init"
  | .field => text "field"
  | .enumConstant => text "enum_constant"
  | .parameter => text "parameter"
  | .localVariable => text "local_variable"
  | .exceptionParameter => text "exception_parameter"
  | .resourceVariable => text "resource_variable"
  | .typeParameter => text "type_parameter"

/-- The kind with a given label. -/
def ofLabel? (label : Text) : Option Kind :=
  all.find? (·.label == label)

def category : Kind → Category
  | .classType | .interfaceType | .enumType | .annotationType | .recordType => .type
  | .method | .constructor | .staticInitializer | .instanceInitializer => .executable
  | .field | .enumConstant | .parameter | .localVariable | .exceptionParameter
  | .resourceVariable => .variable
  | .typeParameter => .other

end Kind

namespace Modifier

/-- All modifiers, in the order in which they are listed to a reader. -/
def all : List Modifier := [
  .isPublic, .isProtected, .isPrivate, .isAbstract, .isDefault, .isStatic, .isFinal,
  .isTransient, .isVolatile, .isSynchronized, .isNative, .isStrictfp, .isSealed, .isNonSealed
]

def label : Modifier → Text
  | .isPublic => text "public"
  | .isProtected => text "protected"
  | .isPrivate => text "private"
  | .isAbstract => text "abstract"
  | .isDefault => text "default"
  | .isStatic => text "static"
  | .isFinal => text "final"
  | .isTransient => text "transient"
  | .isVolatile => text "volatile"
  | .isSynchronized => text "synchronized"
  | .isNative => text "native"
  | .isStrictfp => text "strictfp"
  | .isSealed => text "sealed"
  | .isNonSealed => text "non_sealed"

/-- The modifier with a given label. -/
def ofLabel? (label : Text) : Option Modifier :=
  all.find? (·.label == label)

end Modifier

end NamingAdvice
