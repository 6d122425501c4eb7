import CheckWorker.Engine.Error
import CheckWorker.FileSystem.FileTree
import CheckWorker.Identity

/-!
# The shim file

The shim is a short Python program that runs beside the engine's packages and keeps the engine's
entry point loaded between checks. Its text is part of the worker, which writes it below its home
under the worker's own version, so that workers of different versions do not disturb each other.
-/

namespace CheckWorker.Shim

def sourceLines : List String := [
    "\"\"\"Pycheck engine shim.",
    "",
    "Runs inside the managed virtualenv and keeps the engine's programmatic entry",
    "point loaded between checks. Speaks newline-delimited JSON:",
    "",
    "    stdin  <- \x7b\"op\": \"import\"\x7d | \x7b\"op\": \"run\", \"args\": [...]\x7d",
    "    stdout -> \x7b\"ok\": true, ...\x7d | \x7b\"ok\": false, \"error\": \"...\"\x7d",
    "",
    "The first stdout line is a hello carrying the shim protocol version.",
    "Anything else the engine prints is redirected to stderr, which the worker",
    "forwards as log text.",
    "\"\"\"",
    "",
    "import importlib",
    "import json",
    "import sys",
    "import traceback",
    "",
    "PROTOCOL = \"1\"",
    "",
    "",
    "def _describe(exc):",
    "    return \"\".join(traceback.format_exception_only(type(exc), exc)).strip()",
    "",
    "",
    "def main():",
    "    if len(sys.argv) != 2:",
    "        sys.stderr.write(\"usage: engine_shim.py <module>\\n\")",
    "        return 2",
    "",
    "    module_name = sys.argv[1]",
    "    channel = sys.stdout",
    "    sys.stdout = sys.stderr",
    "    api = None",
    "",
    "    def reply(frame):",
    "        channel.write(json.dumps(frame) + \"\\n\")",
    "        channel.flush()",
    "",
    "    reply(\x7b\"ok\": True, \"protocol\": PROTOCOL\x7d)",
    "",
    "    for line in sys.stdin:",
    "        line = line.strip()",
    "        if not line:",
    "            continue",
    "        try:",
    "            request = json.loads(line)",
    "            op = request.get(\"op\")",
    "            if op == \"import\":",
    "                if api is None:",
    "                    api = importlib.import_module(module_name)",
    "                reply(\x7b\"ok\": True\x7d)",
    "            elif op == \"run\":",
    "                if api is None:",
    "                    reply(\x7b\"ok\": False, \"error\": \"engine entry point not imported\"\x7d)",
    "                    continue",
    "                stdout, stderr, status = api.run(list(request.get(\"args\", [])))",
    "                reply(\x7b",
    "                    \"ok\": True,",
    "                    \"stdout\": stdout or \"\",",
    "                    \"stderr\": stderr or \"\",",
    "                    \"status\": int(status or 0),",
    "                \x7d)",
    "            else:",
    "                reply(\x7b\"ok\": False, \"error\": \"unknown op: %r\" % (op,)\x7d)",
    "        except BaseException as exc:  # engines may raise SystemExit",
    "            reply(\x7b\"ok\": False, \"error\": _describe(exc)\x7d)",
    "",
    "    return 0",
    "",
    "",
    "if __name__ == \"__main__\":",
    "    sys.exit(main())"]

def source : String :=
  String.join (sourceLines.map (· ++ "\n"))

def directory (home : FilePath) : FilePath :=
  (home.join "shim").join Identity.version

def file (home : FilePath) : FilePath :=
  (directory home).join "engine_shim.py"

def isCurrent (files : FileTree) (path : FilePath) : Bool :=
  match files.readText path with
  | .ok text => text == source
  | .error _ => false

/-- Writes the shim below a home unless it is there already, and gives its path. -/
def materialize (home : FilePath) (files : FileTree) : Except Trouble FilePath × FileTree :=
  let directory := directory home
  match files.makeDirectories directory with
  | (files, .error e) =>
      (.error ((Trouble.plain e.message).within
        ("Failed to create shim directory: " ++ directory.text)), files)
  | (files, .ok ()) =>
      let path := file home
      if isCurrent files path then (.ok path, files)
      else
        match files.write path source.toUTF8 with
        | .ok files => (.ok path, files)
        | .error e =>
            (.error ((Trouble.plain e.message).within
              ("Failed to write shim: " ++ path.text)), files)

end CheckWorker.Shim
