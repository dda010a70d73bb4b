import TwoStage.Yaml.Tree

/-!
# What a plain scalar means

A scalar without quotes is null, a boolean, an integer, a floating point number or, failing all
of these, a text. Integers are decimal, or have a base after `0x`, `0o` or `0b`; a decimal with a
zero in front of further digits is a text.
-/

namespace TwoStage.Yaml

open Decimal

/-- The value of a scalar. An integer that needs more than 64 bits but fits 128 is refused. -/
inductive Meaning
  | value (t : Tree)
  | tooWide
deriving Repr

namespace Meaning

def isNullWord (cs : List Char) : Bool :=
  ["null", "Null", "NULL", "~"].contains (String.ofList cs)

def boolWord? (cs : List Char) : Option Bool :=
  let s := String.ofList cs
  if ["true", "True", "TRUE"].contains s then some true
  else if ["false", "False", "FALSE"].contains s then some false
  else none

/-- Digits behind a leading zero, after an optional sign. -/
def hasLeadingZero (cs : List Char) : Bool :=
  let unsigned :=
    match cs with
    | '-' :: rest => rest
    | '+' :: rest => rest
    | cs          => cs
  match unsigned with
  | '0' :: d :: rest => (d :: rest).all Char.isDigit
  | _                => false

/-- The number behind a base, if one is given and digits follow. -/
def based? : List Char → Option Nat
  | '0' :: 'x' :: ds => ofDigits? 16 ds
  | '0' :: 'o' :: ds => ofDigits? 8 ds
  | '0' :: 'b' :: ds => ofDigits? 2 ds
  | _                => none

def natural? (cs : List Char) : Option Nat :=
  let unsigned :=
    match cs with
    | '+' :: rest => rest
    | cs          => cs
  match based? unsigned with
  | some n => some n
  | none   => if hasLeadingZero cs then none else ofDigits? 10 unsigned

/-- An integer with a minus sign, as the number behind it. -/
def negated? : List Char → Option Nat
  | '-' :: rest =>
    match based? rest with
    | some n => some n
    | none   => if hasLeadingZero rest then none else ofDigits? 10 rest
  | _ => none

/-- The integer a scalar writes, if it fits 128 bits. -/
def integer? (cs : List Char) : Option Meaning :=
  match natural? cs, negated? cs with
  | some n, _ =>
    if n < Nat.pow 2 64 then some (.value (.int n))
    else if n < Nat.pow 2 128 then some .tooWide
    else none
  | none, some n =>
    if n ≤ Nat.pow 2 63 then some (.value (.int (-(n : Int))))
    else if n ≤ Nat.pow 2 127 then some .tooWide
    else none
  | none, none => none

def float? (cs : List Char) : Option Binary64 :=
  let s := String.ofList cs
  if [".inf", ".Inf", ".INF", "+.inf", "+.Inf", "+.INF"].contains s then some (.infinite false)
  else if ["-.inf", "-.Inf", "-.INF"].contains s then some (.infinite true)
  else if [".nan", ".NaN", ".NAN"].contains s then some .nan
  else
    match Binary64.read? cs with
    | some x => if x.isFinite then some x else none
    | none   => none

def ofPlain (cs : List Char) : Meaning :=
  if cs = [] ∨ isNullWord cs then .value .null
  else
    match boolWord? cs with
    | some b => .value (.bool b)
    | none   =>
      match integer? cs with
      | some m => m
      | none   =>
        match if hasLeadingZero cs then none else float? cs with
        | some x => .value (.number (.float x))
        | none   => .value (.text (String.ofList cs))

/-- The texts that need quotes to stay texts: those a plain scalar would give another meaning, and
those that look like a number with zeros in front. -/
def isAmbiguous (s : String) : Bool :=
  match ofPlain s.toList with
  | .value (.text _) => hasLeadingZero s.toList
  | _                => true

end Meaning

end TwoStage.Yaml
