/-!
# Names that need no import

Names that every program can use. The lists are known to be incomplete: names that a framework
injects are left to the configuration.
-/

namespace PatchLint

/-- Names whose members can always be read. -/
def safeBases : List String := ["console", "process"]

/-- Names of the runtime. -/
def runtimeGlobals : List String :=
  ["console", "process", "require", "module", "exports", "global", "__dirname", "__filename"]

/-- Names of the language and of browsers. -/
def builtinGlobals : List String :=
  ["Array", "Boolean", "Date", "Error", "Function", "JSON", "Math", "Number", "Object", "Promise",
   "RegExp", "String", "Symbol", "undefined", "null", "NaN", "Infinity", "parseInt", "parseFloat",
   "isNaN", "isFinite", "decodeURI", "encodeURI", "Map", "Set", "WeakMap", "WeakSet", "Proxy",
   "Reflect", "setTimeout", "setInterval", "clearTimeout", "clearInterval", "window", "document",
   "location", "navigator", "fetch", "Response", "Request", "Headers", "URL", "arguments",
   "globalThis"]

/-- All names that need no import. -/
def knownGlobals : List String := runtimeGlobals ++ builtinGlobals

end PatchLint
