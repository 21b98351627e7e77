import RubySupervisor.Json.Shape

/-!
# Capabilities

What a session announces when it initializes a server, and which answers to the initialization are
accepted. The announcement is fixed; the answer must be a record whose capabilities have members of
the right kind.
-/

namespace RubySupervisor.Capabilities

/-- A feature that is not registered dynamically. -/
def staticRegistration : Json := .object [("dynamicRegistration", .bool false)]

/-- What is announced about a document's features. -/
def textDocument : Json :=
  .object [
    ("codeAction", .object [
      ("codeActionLiteralSupport", .object [
        ("codeActionKind", .object [
          ("valueSet", .array [.text "quickfix", .text "refactor", .text "refactor.extract",
            .text "refactor.rewrite"])])]),
      ("dataSupport", .bool true),
      ("resolveSupport", .object [("properties", .array [.text "edit"])])]),
    ("codeLens", staticRegistration),
    ("completion", .object [
      ("completionItem", .object [
        ("documentationFormat", .array [.text "markdown", .text "plaintext"]),
        ("snippetSupport", .bool true)])]),
    ("diagnostic", .object [
      ("dynamicRegistration", .bool false), ("relatedDocumentSupport", .bool false)]),
    ("foldingRange", .object [("lineFoldingOnly", .bool true)]),
    ("formatting", staticRegistration),
    ("hover", .object [("contentFormat", .array [.text "markdown"])]),
    ("inlayHint", staticRegistration),
    ("onTypeFormatting", staticRegistration),
    ("publishDiagnostics", .object [("versionSupport", .bool true)])]

/-- What is announced about the workspace. -/
def workspace : Json :=
  .object [
    ("applyEdit", .bool true),
    ("codeLens", .object [("refreshSupport", .bool true)]),
    ("configuration", .bool true),
    ("diagnostic", .object [("refreshSupport", .bool true)]),
    ("didChangeConfiguration", staticRegistration),
    ("didChangeWatchedFiles", .object [
      ("dynamicRegistration", .bool true), ("relativePatternSupport", .bool false)]),
    ("executeCommand", staticRegistration),
    ("workspaceFolders", .bool true)]

/-- Everything that is announced. -/
def announced : Json :=
  .object [
    ("general", .object [("positionEncodings", .array [.text "utf-16"])]),
    ("textDocument", textDocument),
    ("window", .object [("workDoneProgress", .bool true)]),
    ("workspace", workspace)]

open Json.Shape (due may)

/-- A number of an enumeration. -/
def number : Json.Shape := .integer (-2147483648) 2147483647

/-- A list of texts. -/
def texts : Json.Shape := .list .text

/-- Options with fields of their own, which may say that progress is reported. -/
def options (fields : List (String × Bool × Json.Shape)) : Json.Shape :=
  .record true (may "workDoneProgress" .truth :: fields)

/-- A record that is one of several alternatives by the fields that it has. -/
def alternative (fields : List (String × Bool × Json.Shape)) : Json.Shape := .record true fields

/-- A record of fields. -/
def plain (fields : List (String × Bool × Json.Shape)) : Json.Shape := .record false fields

/-- A truth value, or options of one of several shapes. -/
def truthOr (shapes : List Json.Shape) : Json.Shape := .either (.truth :: shapes)

/-- Which documents a feature is registered for. -/
def documentFilters : Json.Shape :=
  .list (plain [may "language" .text, may "scheme" .text, may "pattern" .text])

/-- A registration for documents. -/
def staticDocuments : Json.Shape := plain [may "documentSelector" documentFilters, may "id" .text]

/-- The fields of a registration for documents. -/
def registration : List (String × Bool × Json.Shape) :=
  [may "documentSelector" documentFilters, may "id" .text]

/-- How changes of documents are passed on. -/
def synchronization : Json.Shape :=
  .either [number, plain [may "openClose" .truth, may "change" number, may "willSave" .truth,
    may "willSaveWaitUntil" .truth,
    may "save" (truthOr [plain [may "includeText" .truth]])]]

/-- Which notebooks are passed on. -/
def notebook : Json.Shape :=
  .either [.text, .either [
    alternative [due "notebook_type" .text, may "scheme" .text, may "pattern" .text],
    alternative [may "notebook_type" .text, due "scheme" .text, may "pattern" .text],
    alternative [may "notebook_type" .text, may "scheme" .text, due "pattern" .text]]]

/-- The cells of a notebook that are passed on. -/
def cells : Json.Shape := .list (plain [due "language" .text])

/-- How changes of notebooks are passed on. -/
def notebookFields : List (String × Bool × Json.Shape) :=
  [due "notebookSelector" (.list (.either [
      alternative [due "notebook" notebook, may "cells" cells],
      alternative [may "notebook" notebook, due "cells" cells]])),
    may "save" .truth]

/-- How operations on files are passed on. -/
def fileOperations : Json.Shape :=
  plain [due "filters" (.list (plain [may "scheme" .text, due "pattern" (plain [
    due "glob" .text, may "matches" (.nameOf ["file", "folder"]),
    may "options" (plain [may "ignoreCase" .truth])])]))]

/-- What a server can do with a workspace. -/
def serverWorkspace : Json.Shape :=
  plain [
    may "workspaceFolders" (plain [may "supported" .truth,
      may "changeNotifications" (truthOr [.text])]),
    may "fileOperations" (plain [may "didCreate" fileOperations, may "willCreate" fileOperations,
      may "didRename" fileOperations, may "willRename" fileOperations,
      may "didDelete" fileOperations, may "willDelete" fileOperations])]

/-- The fields of semantic tokens. -/
def semanticTokens : List (String × Bool × Json.Shape) :=
  [due "legend" (plain [due "tokenTypes" texts, due "tokenModifiers" texts]), may "range" .truth,
    may "full" (truthOr [alternative [may "delta" .truth]])]

/-- The fields of diagnostics. -/
def diagnostics : List (String × Bool × Json.Shape) :=
  [may "identifier" .text, due "interFileDependencies" .truth, due "workspaceDiagnostics" .truth]

/-- What a server can do. -/
def serverCapabilities : Json.Shape :=
  plain [
    may "positionEncoding" .text,
    may "textDocumentSync" synchronization,
    may "notebookDocumentSync" (.either [plain notebookFields,
      plain (notebookFields ++ [may "id" .text])]),
    may "selectionRangeProvider" (truthOr [options [], options registration]),
    may "hoverProvider" (truthOr [options []]),
    may "completionProvider" (options [may "resolveProvider" .truth,
      may "triggerCharacters" texts, may "allCommitCharacters" texts,
      may "completionItem" (plain [may "labelDetailsSupport" .truth])]),
    may "signatureHelpProvider" (options [may "triggerCharacters" texts,
      may "retriggerCharacters" texts]),
    may "definitionProvider" (truthOr [options []]),
    may "typeDefinitionProvider" (truthOr [staticDocuments]),
    may "implementationProvider" (truthOr [staticDocuments]),
    may "referencesProvider" (truthOr [options []]),
    may "documentHighlightProvider" (truthOr [options []]),
    may "documentSymbolProvider" (truthOr [options [may "label" .text]]),
    may "workspaceSymbolProvider" (truthOr [options [may "resolveProvider" .truth]]),
    may "codeActionProvider" (truthOr [options [may "codeActionKinds" texts,
      may "resolveProvider" .truth]]),
    may "codeLensProvider" (plain [may "resolveProvider" .truth]),
    may "documentFormattingProvider" (truthOr [options []]),
    may "documentRangeFormattingProvider" (truthOr [options []]),
    may "documentOnTypeFormattingProvider" (plain [due "firstTriggerCharacter" .text,
      may "moreTriggerCharacter" texts]),
    may "renameProvider" (truthOr [options [may "prepareProvider" .truth]]),
    may "documentLinkProvider" (options [may "resolveProvider" .truth]),
    may "colorProvider" (truthOr [plain [], staticDocuments]),
    may "foldingRangeProvider" (truthOr [plain [], staticDocuments]),
    may "declarationProvider" (truthOr [options registration, options []]),
    may "executeCommandProvider" (options [due "commands" texts]),
    may "workspace" serverWorkspace,
    may "callHierarchyProvider" (truthOr [options []]),
    may "semanticTokensProvider" (.either [options semanticTokens,
      options (registration ++ semanticTokens)]),
    may "monikerProvider" (truthOr [options [], options registration]),
    may "linkedEditingRangeProvider" (truthOr [options [], options registration]),
    may "inlineValueProvider" (truthOr [options [], options registration]),
    may "inlayHintProvider" (truthOr [options [may "resolveProvider" .truth],
      options (may "resolveProvider" .truth :: registration)]),
    may "diagnosticProvider" (.either [options diagnostics,
      options (registration ++ diagnostics)]),
    may "experimental" .anything]

/-- The answer to an initialization. -/
def answer : Json.Shape :=
  plain [due "capabilities" serverCapabilities,
    may "serverInfo" (plain [due "name" .text, may "version" .text])]

/-- Accepts the answer to an initialization. -/
def accept? (j : Json) : Option Unit := if answer.admits j then some () else none

end RubySupervisor.Capabilities
