import NetlinkFamily.Spec.Source

/-!
The records of a specification, read field by field.
-/

namespace NetlinkFamily.Spec

variable {N : Type} (source : Source N)

def readDefinition (node : N) : Option Definition := do
  let fields ← source.fields
    ["name", "type", "value", "doc", "header", "entries", "value-start", "name-prefix",
      "enum-name", "render-max", "c-define-name"] node
  return {
    name := ← Source.required fields "name" source.text
    kind := ← Source.required fields "type"
      (source.word [("const", .const), ("enum", .enum), ("flags", .flags)])
    value := ← source.optional fields "value" source.int64
    doc := ← source.optional fields "doc" source.text
    header := ← source.optional fields "header" source.text
    entries := ← Source.default fields "entries" [] (source.listOf source.enumEntry)
    valueStart := ← source.optional fields "value-start" source.uint64
    namePrefix := ← source.optional fields "name-prefix" source.text
    enumName := ← source.nameKey fields "enum-name"
    renderMax := ← Source.default fields "render-max" false source.bool
    defineName := ← source.optional fields "c-define-name" source.text }

def readChecks (node : N) : Option Checks := do
  let fields ← source.fields ["min", "max-len", "min-len", "flags-mask", "unterminated-ok"] node
  return {
    min := ← source.optional fields "min" source.int64
    maxLength := ← source.optional fields "max-len" source.uint64
    minLength := ← source.optional fields "min-len" source.uint64
    flagsMask := ← source.optional fields "flags-mask" source.text
    unterminatedOk := ← source.optional fields "unterminated-ok" source.bool }

def readAttribute (node : N) : Option Attribute := do
  let fields ← source.fields
    ["name", "type", "value", "doc", "checks", "nested-attributes", "multi-attr", "sub-type",
      "type-value", "byte-order", "enum", "enum-as-flags", "name-prefix"] node
  return {
    name := ← Source.required fields "name" source.text
    kind := ← source.optional fields "type" source.text
    value := ← source.optional fields "value" source.uint32
    doc := ← source.optional fields "doc" source.text
    checks := ← source.optional fields "checks" (readChecks source)
    nestedAttributes := ← source.optional fields "nested-attributes" source.text
    multi := ← source.optional fields "multi-attr" source.bool
    subType := ← source.optional fields "sub-type" source.text
    typeValue := ← source.optional fields "type-value" source.texts
    byteOrder := ← source.optional fields "byte-order" source.text
    enumRef := ← source.optional fields "enum" source.text
    enumAsFlags := ← source.optional fields "enum-as-flags" source.bool
    namePrefix := ← source.optional fields "name-prefix" source.text }

def readAttributeSet (node : N) : Option AttributeSet := do
  let fields ← source.fields
    ["name", "doc", "name-prefix", "enum-name", "attr-max-name", "subset-of", "attributes"] node
  return {
    name := ← Source.required fields "name" source.text
    doc := ← source.optional fields "doc" source.text
    namePrefix := ← source.optional fields "name-prefix" source.text
    enumName := ← source.nameKey fields "enum-name"
    maxName := ← source.optional fields "attr-max-name" source.text
    subsetOf := ← source.optional fields "subset-of" source.text
    attributes := ← Source.default fields "attributes" [] (source.listOf (readAttribute source)) }

def readDirection (node : N) : Option Direction := do
  let fields ← source.fields ["value", "attributes"] node
  return {
    value := ← source.optional fields "value" source.uint32
    attributes := ← Source.default fields "attributes" [] source.texts }

def readMode (node : N) : Option Mode := do
  let fields ← source.fields ["request", "reply", "pre", "post"] node
  return {
    request := ← source.optional fields "request" (readDirection source)
    reply := ← source.optional fields "reply" (readDirection source)
    pre := ← source.optional fields "pre" source.text
    post := ← source.optional fields "post" source.text }

def readEvent (node : N) : Option (List String) := do
  let fields ← source.fields ["attributes"] node
  Source.default fields "attributes" [] source.texts

def readOperation (node : N) : Option Operation := do
  let fields ← source.fields
    ["name", "doc", "attribute-set", "value", "flags", "dont-validate", "notify", "event",
      "mcgrp", "do", "dump"] node
  return {
    name := ← Source.required fields "name" source.text
    doc := ← source.optional fields "doc" source.text
    attributeSet := ← source.optional fields "attribute-set" source.text
    value := ← source.optional fields "value" source.uint32
    flags := ← Source.default fields "flags" [] source.texts
    dontValidate := ← Source.default fields "dont-validate" [] source.texts
    notify := ← source.optional fields "notify" source.text
    event := ← source.optional fields "event" (readEvent source)
    multicastGroup := ← source.optional fields "mcgrp" source.text
    doMode := ← source.optional fields "do" (readMode source)
    dumpMode := ← source.optional fields "dump" (readMode source) }

def readOperations (node : N) : Option Operations := do
  let fields ← source.fields
    ["name-prefix", "async-prefix", "enum-model", "enum-name", "async-enum", "list"] node
  return {
    namePrefix := ← source.optional fields "name-prefix" source.text
    asyncPrefix := ← source.optional fields "async-prefix" source.text
    numbering := ← Source.default fields "enum-model" .unified
      (source.word [("unified", .unified), ("directional", .directional)])
    enumName := ← source.nameKey fields "enum-name"
    asyncEnum := ← source.nameKey fields "async-enum"
    list := ← Source.default fields "list" [] (source.listOf (readOperation source)) }

def readMulticastGroup (node : N) : Option MulticastGroup := do
  let fields ← source.fields ["name", "c-define-name"] node
  return {
    name := ← Source.required fields "name" source.text
    defineName := ← source.optional fields "c-define-name" source.text }

def readMulticastGroups (node : N) : Option (List MulticastGroup) := do
  let fields ← source.fields ["list"] node
  Source.default fields "list" [] (source.listOf (readMulticastGroup source))

def readFamily (node : N) : Option Family := do
  let fields ← source.fields
    ["name", "protocol", "doc", "version", "uapi-header", "c-family-name", "c-version-name",
      "kernel-policy", "max-by-define", "cmd-max-name", "cmd-cnt-name", "attr-cnt-name",
      "definitions", "attribute-sets", "operations", "mcast-groups"] node
  return {
    name := ← Source.required fields "name" source.text
    protocol := ← source.optional fields "protocol" source.text
    doc := ← source.optional fields "doc" source.text
    version := ← source.optional fields "version" source.uint32
    headerName := ← source.optional fields "uapi-header" source.text
    familyDefine := ← source.optional fields "c-family-name" source.text
    versionDefine := ← source.optional fields "c-version-name" source.text
    kernelPolicy := ← Source.default fields "kernel-policy" .split
      (source.word [("split", .split), ("per-op", .perOperation), ("global", .global)])
    maxByDefine := ← Source.default fields "max-by-define" false source.bool
    commandMaxName := ← source.optional fields "cmd-max-name" source.text
    commandCountName := ← source.optional fields "cmd-cnt-name" source.text
    attributeCountName := ← source.optional fields "attr-cnt-name" source.text
    definitions := ← Source.default fields "definitions" [] (source.listOf (readDefinition source))
    attributeSets := ← Source.default fields "attribute-sets" []
      (source.listOf (readAttributeSet source))
    operations := ← Source.default fields "operations" {} (readOperations source)
    multicastGroups := ← Source.default fields "mcast-groups" [] (readMulticastGroups source) }

end NetlinkFamily.Spec
