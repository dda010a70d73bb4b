import TwoStage.Ssh

/-!
# Settings of a stage

The sections of a stage whose fields may each be left out: images, proxy, package sources and
device. The second stage's fields take precedence over the first's one by one.
-/

namespace TwoStage

open Yaml Decimal

/-! ### Images -/

/-- The image that a stage is built on and the image that it makes. -/
structure Image where
  base? : Option String
  output? : Option String
deriving DecidableEq, Repr

namespace Image

/-- Neither image is given. -/
def empty : Image := ⟨none, none⟩

def fields : List (Decode.Field Image) :=
  [ Decode.field "base" (Decode.optional Decode.text) fun v s => { s with base? := v },
    Decode.field "output" (Decode.optional Decode.text) fun v s => { s with output? := v } ]

def decode : Tree → Decoded Image := Decode.record "ImageConfig" true fields [] empty

def toTree (s : Image) : Tree :=
  .record (
    Tree.fieldIf "base" (s.base?.map .text) ++
    Tree.fieldIf "output" (s.output?.map .text))

end Image

/-! ### Proxy -/

/-- The proxy that an image is built behind. -/
structure Proxy where
  address? : Option String
  port? : Option Nat
  enableGlobally? : Option Bool
  removeAfterBuild? : Option Bool
  useHttps? : Option Bool
deriving DecidableEq, Repr

namespace Proxy

def empty : Proxy := ⟨none, none, none, none, none⟩

/-- The address of the proxy with its scheme and port, when both are known. -/
def url? (s : Proxy) : Option String :=
  match s.address?, s.port? with
  | some address, some port =>
    let scheme := if s.useHttps?.getD false then "https" else "http"
    some (scheme ++ "://" ++ address ++ ":" ++ natText port)
  | _, _ => none

/-- The proxy with the fields of `t` where they are set. -/
def overriddenBy (s t : Proxy) : Proxy where
  address?          := t.address? <|> s.address?
  port?             := t.port? <|> s.port?
  enableGlobally?   := t.enableGlobally? <|> s.enableGlobally?
  removeAfterBuild? := t.removeAfterBuild? <|> s.removeAfterBuild?
  useHttps?         := t.useHttps? <|> s.useHttps?

def fields : List (Decode.Field Proxy) :=
  let flag (name : String) (set : Option Bool → Proxy → Proxy) :=
    Decode.field name (Decode.optional Decode.boolean) set
  [ Decode.field "address" (Decode.optional Decode.text) fun v s => { s with address? := v },
    Decode.field "port" (Decode.optional (Decode.numeric maxPort)) fun v s => { s with port? := v },
    flag "enable_globally" fun v s => { s with enableGlobally? := v },
    flag "remove_after_build" fun v s => { s with removeAfterBuild? := v },
    flag "use_https" fun v s => { s with useHttps? := v } ]

def decode : Tree → Decoded Proxy := Decode.record "ProxyConfig" true fields [] empty

def toTree (s : Proxy) : Tree :=
  .record (
    Tree.fieldIf "address" (s.address?.map .text) ++
    Tree.fieldIf "port" (s.port?.map natTree) ++
    Tree.fieldIf "enable_globally" (s.enableGlobally?.map .bool) ++
    Tree.fieldIf "remove_after_build" (s.removeAfterBuild?.map .bool) ++
    Tree.fieldIf "use_https" (s.useHttps?.map .bool))

end Proxy

/-! ### Package sources -/

/-- Where packages come from while an image is built. -/
structure Apt where
  repoSource? : Option String
  keepRepoAfterBuild? : Option Bool
  useProxy? : Option Bool
  keepProxyAfterBuild? : Option Bool
deriving DecidableEq, Repr

namespace Apt

/-- The sources of the base image. -/
def empty : Apt := ⟨none, none, none, none⟩

/-- The sources with the fields of `t` where they are set. -/
def overriddenBy (s t : Apt) : Apt where
  repoSource?          := t.repoSource? <|> s.repoSource?
  keepRepoAfterBuild?  := t.keepRepoAfterBuild? <|> s.keepRepoAfterBuild?
  useProxy?            := t.useProxy? <|> s.useProxy?
  keepProxyAfterBuild? := t.keepProxyAfterBuild? <|> s.keepProxyAfterBuild?

def fields : List (Decode.Field Apt) :=
  let flag (name : String) (set : Option Bool → Apt → Apt) :=
    Decode.field name (Decode.optional Decode.boolean) set
  [ Decode.field "repo_source" (Decode.optional Decode.text) fun v s => { s with repoSource? := v },
    flag "keep_repo_after_build" fun v s => { s with keepRepoAfterBuild? := v },
    flag "use_proxy" fun v s => { s with useProxy? := v },
    flag "keep_proxy_after_build" fun v s => { s with keepProxyAfterBuild? := v } ]

def decode : Tree → Decoded Apt := Decode.record "AptConfig" true fields [] empty

def toTree (s : Apt) : Tree :=
  .record (
    Tree.fieldIf "repo_source" (s.repoSource?.map .text) ++
    Tree.fieldIf "keep_repo_after_build" (s.keepRepoAfterBuild?.map .bool) ++
    Tree.fieldIf "use_proxy" (s.useProxy?.map .bool) ++
    Tree.fieldIf "keep_proxy_after_build" (s.keepProxyAfterBuild?.map .bool))

end Apt

/-! ### Device -/

inductive Device
  | cpu
  | gpu
deriving DecidableEq, Repr

namespace Device

def name : Device → String
  | .cpu => "cpu"
  | .gpu => "gpu"

def byName : List (String × Device) := [.cpu, .gpu].map fun d => (d.name, d)

def fields : List (Decode.Field Device) :=
  [ Decode.field "type" (Decode.choice byName) fun v _ => v ]

/-- Decode the section, which has to name the device. -/
def decode : Tree → Decoded Device := Decode.record "DeviceConfig" true fields ["type"] .cpu

def sectionTree (d : Device) : Tree := .record [("type", .text d.name)]

end Device

end TwoStage
