/-
The standard library of the analysed language: the packages that need no installation.

The list also holds `yaml` and `pytest`, which are treated like the rest of it.
-/

set_option relaxedAutoImplicit false
set_option autoImplicit false

namespace ModuleDeps.StandardLibrary

/-- The top-level names of the standard library, in alphabetical order. -/
def names : List String :=
  ["__future__", "abc", "argparse", "array", "ast", "asyncio", "base64", "binascii", "bisect",
    "builtins", "bz2", "calendar", "cmath", "codecs", "collections", "concurrent", "configparser",
    "contextlib", "contextvars", "copy", "csv", "ctypes", "dataclasses", "datetime", "decimal",
    "difflib", "dis", "doctest", "email", "enum", "errno", "fnmatch", "fractions", "functools",
    "gc", "getpass", "gettext", "glob", "gzip", "hashlib", "heapq", "hmac", "html", "http",
    "importlib", "inspect", "io", "itertools", "json", "keyword", "locale", "logging", "lzma",
    "math", "mmap", "multiprocessing", "numbers", "operator", "optparse", "os", "pathlib", "pdb",
    "pickle", "pkgutil", "platform", "pprint", "pytest", "queue", "random", "re", "reprlib",
    "sched", "secrets", "select", "selectors", "shlex", "shutil", "signal", "site", "smtplib",
    "socket", "socketserver", "sqlite3", "ssl", "stat", "statistics", "string", "struct",
    "subprocess", "sys", "sysconfig", "tarfile", "tempfile", "textwrap", "threading", "time",
    "timeit", "tokenize", "tomllib", "traceback", "types", "typing", "unicodedata", "unittest",
    "urllib", "uuid", "warnings", "weakref", "xml", "yaml", "zipfile", "zlib", "zoneinfo"]

/-- Does the top-level name belong to the standard library? -/
def holds (topLevel : String) : Bool :=
  names.contains topLevel

end ModuleDeps.StandardLibrary
