import WebBundle.Json.Printer

/-!
The texts of chunk files. Every chunk registers its modules in a shared table; an entry chunk also
carries the loader, which runs modules and fetches the chunks of dynamic imports.
-/

namespace WebBundle.Loader

/-- The first statement of every chunk file. -/
def prelude : String :=
  "var __sheaf_modules__ = (globalThis.__sheaf_modules__ = globalThis.__sheaf_modules__ || \x7b\x7d);"

/-- The loader, a function of the module table, the public path, the files of the dynamic imports and the
files that are already there. -/
def loader : String := String.intercalate "\n" [
  "(function (modules, publicPath, asyncMap, preloaded) \x7b",
  "  var cache = \x7b\x7d;",
  "  var installed = \x7b\x7d;",
  "  preloaded.forEach(function (file) \x7b",
  "    installed[file] = Promise.resolve();",
  "  \x7d);",
  "  function load(key) \x7b",
  "    if (cache[key]) return cache[key].exports;",
  "    var record = modules[key];",
  "    if (!record) throw new Error(\"Cannot find module '\" + key + \"'\");",
  "    var module = (cache[key] = \x7b exports: \x7b\x7d \x7d);",
  "    record[1].call(module.exports, module, module.exports, scoped(record[0]));",
  "    return module.exports;",
  "  \x7d",
  "  function scoped(deps) \x7b",
  "    function lookup(specifier) \x7b",
  "      return Object.prototype.hasOwnProperty.call(deps, specifier) ? deps[specifier] : specifier;",
  "    \x7d",
  "    function require(specifier) \x7b",
  "      return load(lookup(specifier));",
  "    \x7d",
  "    require.dynamic = function (specifier) \x7b",
  "      var key = lookup(specifier);",
  "      var files = asyncMap[key] || [];",
  "      return Promise.all(files.map(loadFile)).then(function () \x7b",
  "        return load(key);",
  "      \x7d);",
  "    \x7d;",
  "    return require;",
  "  \x7d",
  "  function loadFile(file) \x7b",
  "    if (installed[file]) return installed[file];",
  "    installed[file] = new Promise(function (resolve, reject) \x7b",
  "      var element;",
  "      if (/\\.css$/.test(file)) \x7b",
  "        element = document.createElement(\"link\");",
  "        element.rel = \"stylesheet\";",
  "        element.href = publicPath + file;",
  "      \x7d else \x7b",
  "        element = document.createElement(\"script\");",
  "        element.src = publicPath + file;",
  "      \x7d",
  "      element.onload = resolve;",
  "      element.onerror = function () \x7b",
  "        delete installed[file];",
  "        reject(new Error(\"Loading chunk file failed: \" + file));",
  "      \x7d;",
  "      document.head.appendChild(element);",
  "    \x7d);",
  "    return installed[file];",
  "  \x7d",
  "  globalThis.__sheaf_require__ = load;",
  "\x7d)"]

def textArray (texts : List String) : Json := .array (texts.map Json.string)

/-- The statement that registers a module under its key, with the keys of its dependencies by
specifier. -/
def registration (key : String) (dependencies : List (String × String)) (body : String)
    (banner : Bool) : String :=
  let comment := if banner then "/* " ++ key.replace "*/" "*\\/" ++ " */\n" else ""
  let fields : Json := .object (dependencies.map fun (specifier, target) => (specifier, .string target))
  let ending := if body = "" || body.toList.getLast? == some '\n' then "" else "\n"
  comment ++ "__sheaf_modules__[" ++ Json.quote key ++ "] = [" ++ fields.compact ++
    ", function (module, exports, require) \x7b\n" ++ body ++ ending ++ "\x7d];\n"

/-- The loader and the call that runs the entry. -/
def bootstrap (publicPath : String) (filesOf : List (String × List String)) (present : List String)
    (entry : String) : String :=
  let table : Json := .object (filesOf.map fun (key, files) => (key, textArray files))
  loader ++ "(__sheaf_modules__, " ++ Json.quote publicPath ++ ", " ++ table.compact ++ ", " ++
    (textArray present).compact ++ ");\n__sheaf_require__(" ++ Json.quote entry ++ ");\n"

end WebBundle.Loader
